/-
# The request reader

`JsonReader` of control_server.cpp and the whole of `ControlServer::handle_message`: a
request body is read character by character (one character for each byte) into the fields
that the handlers look up.  What stands behind the closing brace of the object is not read.

The mutual recursion of the reader is bounded by twice the length of the body.  Of two nested
calls at least one has consumed a character, so where the bound runs out the input has run
out too.
-/
import GpuChannel.ControlServer
import GpuChannel.Library.Rounding

/-! ## Numbers -/

/-- The value of a run of decimal digits. -/
def decimalValue (digits : List Char) : ℕ :=
  digits.foldl (fun n c => 10 * n + (c.toNat - '0'.toNat)) 0

/-- The exponent part of a number; without digits there is none. -/
def exponentOf : List Char → ℤ
  | [] => 0
  | c :: cs =>
      if c = 'e' ∨ c = 'E' then
        match cs with
        | '-' :: cs => -decimalValue (cs.takeWhile Char.isDigit)
        | '+' :: cs => decimalValue (cs.takeWhile Char.isDigit)
        | cs => decimalValue (cs.takeWhile Char.isDigit)
      else 0

/-- The magnitude of an unsigned number: digits, an optional fraction, an optional exponent. -/
def magnitudeOf {K : Type} [Field K] (token : List Char) : Option K :=
  let whole := token.takeWhile Char.isDigit
  let rest := token.dropWhile Char.isDigit
  let fraction := if rest.head? = some '.' then rest.tail.takeWhile Char.isDigit else []
  let rest := if rest.head? = some '.' then rest.tail.dropWhile Char.isDigit else rest
  if whole = [] ∧ fraction = [] then none
  else some (decimalValue (whole ++ fraction) * 10 ^ (exponentOf rest - fraction.length))

/-- A sign in front, and what stands behind it. -/
def splitSign : List Char → Bool × List Char
  | '-' :: cs => (true, cs)
  | '+' :: cs => (false, cs)
  | cs => (false, cs)

/-- The magnitude of the number that a token begins with. -/
def leadingMagnitude {K : Type} [Field K] (token : List Char) : Option K :=
  magnitudeOf (splitSign token).2

section Stod

variable {K : Type} [Field K] [LinearOrder K] [FloorRing K]

/-- `ERANGE` of `strtod`: the `double` next to the magnitude is past the largest, or it is not
exact and the magnitude, rounded to 53 digits, is below the least normal `double`. -/
def RangeError (m : K) : Prop :=
  2 ^ (1024 : ℤ) - 2 ^ (970 : ℤ) ≤ m ∨
    m < 2 ^ (-1022 : ℤ) - 2 ^ (-1076 : ℤ) ∧ FloatFormat.double.round m ≠ m

instance (m : K) : Decidable (RangeError m) := inferInstanceAs (Decidable (_ ∨ _))

/-- `std::stod` on the characters of a token: the `double` next to the number that it begins
with. -/
def stod (token : List Char) : Option K :=
  match leadingMagnitude token with
  | none => none
  | some m =>
      if RangeError m then none
      else some (FloatFormat.double.round (if (splitSign token).1 then -m else m))

example : stod "-1-2".toList = some (-1 : ℚ) := by decide +kernel

/-- The least normal `double` is next to this number. -/
example : stod (K := ℚ) "2.225073858507201383e-308".toList = some (2 ^ (-1022 : ℤ)) := by
  decide +kernel

example : stod (K := ℚ) "1e-310".toList = none := by decide +kernel

end Stod

/-! ## The reader -/

namespace JsonReader

/-- `skip_ws`. -/
def skipWs (cs : List Char) : List Char :=
  cs.dropWhile fun c => c = ' ' ∨ c = '\t' ∨ c = '\n' ∨ c = '\r'

/-- `take`. -/
def take : List Char → Except String (Char × List Char)
  | [] => .error "unexpected end of input"
  | c :: cs => .ok (c, cs)

/-- `expect`. -/
def expect (c : Char) (cs : List Char) : Except String (List Char) := do
  let (d, cs) ← take cs
  rejectIf (d ≠ c) ("expected '" ++ c.toString ++ "'")
  pure cs

def quote : Char := Char.ofNat 34

def backslash : Char := Char.ofNat 92

/-- The escapes that `read_string` knows. -/
def unescape (e : Char) : Except String Char :=
  if e = quote then .ok quote
  else if e = backslash then .ok backslash
  else if e = 'n' then .ok '\n'
  else .error "unsupported escape"

/-- The loop of `read_string`, behind the opening quote. -/
def readChars : List Char → Except String (List Char × List Char)
  | [] => .error "unexpected end of input"
  | c :: cs =>
      if c = quote then .ok ([], cs)
      else if c = backslash then
        match cs with
        | [] => .error "unexpected end of input"
        | e :: cs => do
            let d ← unescape e
            let (s, rest) ← readChars cs
            pure (d :: s, rest)
      else do
        let (s, rest) ← readChars cs
        pure (c :: s, rest)

/-- `read_string`. -/
def readString (cs : List Char) : Except String (String × List Char) := do
  let cs ← expect quote cs
  let (s, rest) ← readChars cs
  pure (String.ofList s, rest)

/-- The characters of a number. -/
def isNum (c : Char) : Bool :=
  c.isDigit || c = '.' || c = 'e' || c = 'E' || c = '+' || c = '-'

section Values

variable {K : Type} [Field K] [LinearOrder K] [FloorRing K]

/-- The number branch of `read_value`. -/
def readNumber (cs : List Char) : Except String (JsonValue K × List Char) :=
  let token := cs.takeWhile isNum
  if token = [] then .error "expected value"
  else
    match stod token with
    | none => .error "invalid number"
    | some n => .ok (.number n, cs.dropWhile isNum)

/-- The branches of `read_value` that do not recurse. -/
def readScalar (cs : List Char) : Except String (JsonValue K × List Char) :=
  if cs.head? = some quote then (readString cs).map fun (s, rest) => (.string s, rest)
  else if "true".toList.isPrefixOf cs then .ok (.bool true, cs.drop 4)
  else if "false".toList.isPrefixOf cs then .ok (.bool false, cs.drop 5)
  else readNumber cs

mutual

/-- `read_value`. -/
def readValue : ℕ → List Char → Except String (JsonValue K × List Char)
  | 0, _ => .error "unexpected end of input"
  | n + 1, cs =>
      match skipWs cs with
      | [] => .error "unexpected end of input"
      | '{' :: cs => do
          let (fields, rest) ← readFields n false cs
          pure (.object fields, rest)
      | '[' :: cs => do
          let (items, rest) ← readItems n false cs
          pure (.array items, rest)
      | cs => readScalar cs

/-- The loop of `read_flat_object`, behind the opening brace; `more` after a comma. -/
def readFields : ℕ → Bool → List Char → Except String (JsonObject K × List Char)
  | 0, _, _ => .error "unexpected end of input"
  | n + 1, more, cs => do
      if !more && (skipWs cs).head? = some '}' then
        pure ([], (skipWs cs).tail)
      else
        let (key, cs) ← readString (skipWs cs)
        let cs ← expect ':' (skipWs cs)
        let (value, cs) ← readValue n cs
        let (c, cs) ← take (skipWs cs)
        if c = ',' then
          let (fields, rest) ← readFields n true cs
          pure ((key, value) :: fields, rest)
        else if c = '}' then pure ([(key, value)], cs)
        else throw "expected ',' or '\x7d' between fields"

/-- The array loop of `read_value`, behind the opening bracket; `more` after a comma. -/
def readItems : ℕ → Bool → List Char → Except String (List (JsonValue K) × List Char)
  | 0, _, _ => .error "unexpected end of input"
  | n + 1, more, cs => do
      if !more && (skipWs cs).head? = some ']' then
        pure ([], (skipWs cs).tail)
      else
        let (value, cs) ← readValue n cs
        let (c, cs) ← take (skipWs cs)
        if c = ',' then
          let (items, rest) ← readItems n true cs
          pure (value :: items, rest)
        else if c = ']' then pure ([value], cs)
        else throw "expected ',' or ']' in array"

end

/-- `read_flat_object` on a whole request body. -/
def readFlatObject (body : List Char) : Except String (JsonObject K × List Char) := do
  let cs ← expect '{' (skipWs body)
  readFields (2 * body.length) false cs

end Values

end JsonReader

/-! ## `handle_message` -/

section Request

variable {K : Type} [Field K] [LinearOrder K] [FloorRing K] [Libm K]

/-- **`ControlServer::handle_message`** on a request body. -/
def handleRequest (srv : ControlServer K) (links : LinkMap K) (body : List Char) : Handled K :=
  match JsonReader.readFlatObject body with
  | .error reason =>
      ControlServer.emitRejection { srv with msgsReceived := srv.msgsReceived + 1 }
        ("malformed JSON: " ++ reason)
  | .ok (fields, _) => handleMessage srv links fields

end Request
