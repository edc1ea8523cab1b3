/-
# The control server

`ControlServer::handle_message` (control_server.cpp) from the parsed JSON object on:
every check of every handler in its order, the batch staging map, the counters and the
replies.  The numbers of a parsed object are finite, since `std::stod` refuses what is
out of range.  Log lines and the reader itself are left out.

A handler does not write the control blocks itself.  It returns the publications that
its commit block makes, in order, for the caller to perform on the links; a rejected
message publishes nothing.
-/
import GpuChannel.Correlation

/-! ## JSON -/

/-- **`JsonValue`.** The fields of an object are searched in order: `emplace` keeps the first. -/
inductive JsonValue (K : Type)
  | string (s : String)
  | number (n : K)
  | bool (b : Bool)
  | object (fields : List (String × JsonValue K))
  | array (items : List (JsonValue K))

abbrev JsonObject (K : Type) := List (String × JsonValue K)

/-- `json_kind_name`. -/
def JsonValue.kindName {K : Type} : JsonValue K → String
  | .string _ => "string"
  | .number _ => "number"
  | .bool _ => "bool"
  | .object _ => "object"
  | .array _ => "array"

/-- A check of a handler: `return emit_rejection(ctx, reason)` when the condition holds. -/
def rejectIf (c : Prop) [Decidable c] (reason : String) : Except String Unit :=
  if c then .error reason else .ok ()

section Fields

variable {K : Type}

/-- `get_number`. -/
def getNumber (o : JsonObject K) (key : String) (fallback : K) : Except String K :=
  match o.lookup key with
  | none => .ok fallback
  | some (.number n) => .ok n
  | some v => .error ("field '" ++ key ++ "' must be a number, got " ++ v.kindName)

/-- `get_bool`. -/
def getBool (o : JsonObject K) (key : String) (fallback : Bool) : Except String Bool :=
  match o.lookup key with
  | none => .ok fallback
  | some (.bool b) => .ok b
  | some v => .error ("field '" ++ key ++ "' must be a bool, got " ++ v.kindName)

/-- `get_string`. -/
def getString (o : JsonObject K) (key : String) (fallback : String) : Except String String :=
  match o.lookup key with
  | none => .ok fallback
  | some (.string s) => .ok s
  | some _ => .error ("field '" ++ key ++ "' must be a string")

end Fields

/-! ## Parameters -/

/-- **`ParamSpec`.** `field` is the member that `apply_update` assigns for this name. -/
structure ParamSpec (K : Type) where
  name : String
  min : K
  max : K
  isInt : Bool
  field : ParamField

/-- `kParamSpecs`. -/
def kParamSpecs {K : Type} [Field K] : List (ParamSpec K) :=
  [⟨"path_loss_db", -200, 50, false, .pathLossDb⟩,
   ⟨"awgn_snr_db", -30, 120, false, .awgnSnrDb⟩,
   ⟨"los_k_db", -30, 40, false, .losKDb⟩,
   ⟨"cfo_hz", -50000, 50000, false, .cfoHz⟩,
   ⟨"tap0_delay_samples", 0, kMaxProfileDelaySamples, false, .tap0DelaySamples⟩,
   ⟨"tap0_gain_db", -100, 20, false, .tap0GainDb⟩,
   ⟨"tap0_phase_rad", -(31415926535897932 / 10 ^ 16), 31415926535897932 / 10 ^ 16, false,
     .tap0PhaseRad⟩]

/-- `find_param_spec`. -/
def findParamSpec {K : Type} [Field K] (name : String) : Option (ParamSpec K) :=
  kParamSpecs.find? (·.name = name)

/-! ## Server state -/

/-- **`StagedOp`.** A scalar op keeps the parameter that its name resolved to when it was staged. -/
structure StagedOp (K : Type) where
  linkId : String
  update : Update K

/-- **`ControlServer`.** The part of the object that `handle_message` reads and writes. -/
structure ControlServer (K : Type) where
  warmupCapSlots : ℤ
  backendName : String
  openBatches : List (String × List (StagedOp K))
  msgsReceived : ℕ
  updatesApplied : ℕ
  updatesRejected : ℕ
  batchesCommitted : ℕ
  batchesAborted : ℕ

def ControlServer.start (K : Type) (warmupCapSlots : ℤ) (backendName : String) : ControlServer K :=
  { warmupCapSlots := warmupCapSlots, backendName := backendName, openBatches := []
    msgsReceived := 0, updatesApplied := 0, updatesRejected := 0, batchesCommitted := 0
    batchesAborted := 0 }

/-- **`LinkMap`.** -/
abbrev LinkMap (K : Type) := String → Option (BrokerLinkControl K)

/-- The reply body, before it is rendered. -/
inductive Reply
  | error (reason : String)
  | staged
  | applied (seqno appliedAtSlot : ℕ)
  | profileApplied (seqno appliedAtSlot warmupUntilSlot : ℕ)
  | correlationApplied (seqno : ℕ)
  | batchBegun (batchId : String)
  | batchCommitted (batchId backend : String) (linkCount applyAtSlot : ℕ)
      (links : List (String × ℕ × Option ℕ))
  | batchAborted (droppedOps : ℕ)
  deriving DecidableEq, Repr

/-- The `ok` field of a reply. -/
def Reply.ok : Reply → Bool
  | .error _ => false
  | _ => true

/-- One commit block: an update published to a link behind a gate. -/
structure Publication (K : Type) where
  linkId : String
  gate : ℕ
  update : Update K
  deriving DecidableEq

/-- The commit block performed on the link map. -/
def Publication.perform {K : Type} (p : Publication K) (links : LinkMap K) : LinkMap K :=
  Function.update links p.linkId ((links p.linkId).map (·.publish p.gate p.update))

/-- What a handler leaves behind. -/
structure Handled (K : Type) where
  server : ControlServer K
  published : List (Publication K)
  reply : Reply

namespace ControlServer

variable {K : Type}

/-- `emit_rejection`. -/
def emitRejection (srv : ControlServer K) (reason : String) : Handled K :=
  { server := { srv with updatesRejected := srv.updatesRejected + 1 }
    published := [], reply := .error reason }

/-- A staged op: the batch grows and no control block is written. -/
def stageOp (srv : ControlServer K) (batchId : String) (op : StagedOp K) : Handled K :=
  { server := { srv with
      openBatches := srv.openBatches.map fun batch =>
        if batch.1 = batchId then (batch.1, batch.2 ++ [op]) else batch
      updatesApplied := srv.updatesApplied + 1 }
    published := [], reply := .staged }

/-- A single commit, with the reply computed from the control block it leaves. -/
def commit (srv : ControlServer K) (ctl : BrokerLinkControl K) (linkId : String) (gate : ℕ)
    (u : Update K) (reply : BrokerLinkControl K → Reply) : Handled K :=
  { server := { srv with updatesApplied := srv.updatesApplied + 1 }
    published := [⟨linkId, gate, u⟩], reply := reply (ctl.publish gate u) }

/-- `resolve_optional_batch`: no batch, an open batch, or a rejection. -/
def resolveOptionalBatch (srv : ControlServer K) (fields : JsonObject K) :
    Except String (Option String) :=
  match fields.lookup "batch_id" with
  | none => .ok none
  | some (.string bid) =>
      if bid.isEmpty then .error "batch_id must be non-empty when present"
      else if (srv.openBatches.lookup bid).isNone then .error ("unknown batch_id: " ++ bid)
      else .ok (some bid)
  | some _ => .error "batch_id must be a string"

/-- The slot estimate of `make_success_reply_v2`. -/
def appliedAtSlot (ctl : BrokerLinkControl K) : ℕ := max ctl.takeEffectAtSlot ctl.currentSlot

end ControlServer

/-- `link_map.find(link_id)`. -/
def findLink {K : Type} (links : LinkMap K) (linkId : String) : Except String (BrokerLinkControl K) :=
  match links linkId with
  | none => .error ("unknown link_id: " ++ linkId)
  | some ctl => .ok ctl

/-- The link of a swap message: a string `link_id` of a known link. -/
def swapLink {K : Type} (kind : String) (links : LinkMap K) (fields : JsonObject K) :
    Except String (String × BrokerLinkControl K) :=
  match fields.lookup "link_id" with
  | some (.string linkId) => (findLink links linkId).map fun ctl => (linkId, ctl)
  | _ => .error (kind ++ ": missing or non-string link_id")

/-- An array field, or the given rejection. -/
def arrayField {K : Type} (fields : JsonObject K) (key reason : String) :
    Except String (List (JsonValue K)) :=
  match fields.lookup key with
  | some (.array items) => .ok items
  | _ => .error reason

section Handlers

variable {K : Type} [Field K] [LinearOrder K] [FloorRing K] [Libm K]

/-- The optional, non-negative `take_effect_at_slot`. -/
def takeEffectAtSlot (text : String) (fields : JsonObject K) : Except String ℕ := do
  let tea ← getNumber fields "take_effect_at_slot" 0
  rejectIf (tea < 0) (text ++ "take_effect_at_slot must be >= 0")
  pure (castU64 tea)

/-! ## Scalar updates -/

/-- What the checks of `handle_scalar_update` establish. -/
structure ScalarRequest (K : Type) where
  linkId : String
  control : BrokerLinkControl K
  field : ParamField
  value : K
  gate : ℕ
  batch : Option String

/-- The required fields of a scalar update. -/
def scalarFields (fields : JsonObject K) : Except String (String × String × K) :=
  match fields.lookup "link_id", fields.lookup "param", fields.lookup "value" with
  | some (.string linkId), some (.string param), some (.number value) => .ok (linkId, param, value)
  | some _, some _, some _ =>
      .error "type error: link_id/param must be strings, value must be a number"
  | _, _, _ => .error "missing required field (need link_id, param, value)"

/-- The whitelist lookup of `handle_scalar_update`. -/
def paramSpec (param : String) : Except String (ParamSpec K) :=
  match findParamSpec param with
  | none => .error ("unknown param: " ++ param)
  | some spec => .ok spec

/-- The checks of `handle_scalar_update`. -/
def scalarRequest (srv : ControlServer K) (links : LinkMap K) (fields : JsonObject K) :
    Except String (ScalarRequest K) := do
  let (linkId, param, value) ← scalarFields fields
  let ctl ← findLink links linkId
  rejectIf (ctl.fixedMimoDeclared ∧ param.startsWith "tap0_")
    ("link " ++ linkId ++ " declares fixed_mimo, whose per-lane tap weights carry the " ++
      "matrix; a tap-scope update would erase it (scalar params like path_loss_db are fine)")
  let spec ← paramSpec param
  rejectIf (value < spec.min ∨ spec.max < value)
    ("param '" ++ param ++ "' value " ++ Libm.formatDouble value ++ " out of range [" ++
      Libm.formatDouble spec.min ++ ", " ++ Libm.formatDouble spec.max ++ "]")
  rejectIf (spec.isInt ∧ (truncInt value : K) ≠ value)
    ("param '" ++ param ++ "' requires an integer value")
  let gate ← takeEffectAtSlot "" fields
  let batch ← srv.resolveOptionalBatch fields
  pure ⟨linkId, ctl, spec.field, value, gate, batch⟩

/-- **`handle_scalar_update`.** -/
def handleScalarUpdate (srv : ControlServer K) (links : LinkMap K) (fields : JsonObject K) :
    Handled K :=
  match scalarRequest srv links fields with
  | .error reason => srv.emitRejection reason
  | .ok r =>
      match r.batch with
      | some bid => srv.stageOp bid ⟨r.linkId, .scalar r.field r.value⟩
      | none => srv.commit r.control r.linkId r.gate (.scalar r.field r.value) fun ctl =>
          .applied ctl.seqno (ControlServer.appliedAtSlot ctl)

/-! ## Correlation swaps -/

/-- One entry of a side of a `correlation_swap`. -/
def correlationEntry (name : String) (dim : ℕ) : JsonValue K → Except String (CorrelationEntry K)
  | .object o => do
      let read := fun key fallback =>
        (getNumber o key fallback).mapError ("correlation_swap: " ++ name ++ ": " ++ ·)
      let i ← read "i" (-1)
      let j ← read "j" (-1)
      let re ← read "re" 0
      let im ← read "im" 0
      let e : CorrelationEntry K := ⟨truncInt i, truncInt j, re, im⟩
      rejectIf (e.i < 0 ∨ e.j ≤ e.i ∨ (dim : ℤ) ≤ e.j)
        ("correlation_swap: '" ++ name ++ "' entry (" ++ toString e.i ++ ", " ++
          toString e.j ++ ") must satisfy 0 <= i < j < " ++ toString dim)
      rejectIf (1 + 1 / 10 ^ 12 < Libm.sqrt (e.re * e.re + e.im * e.im))
        ("correlation_swap: '" ++ name ++ "' entry magnitude above 1 is not a correlation")
      pure e
  | _ => throw ("correlation_swap: '" ++ name ++ "' entries must be objects")

/-- `read_side` of `handle_correlation_swap`; an omitted side is the identity. -/
def readSide (fields : JsonObject K) (name : String) (dim : ℕ) :
    Except String (List (CorrelationEntry K)) :=
  match fields.lookup name with
  | none => pure []
  | some (.array items) => items.mapM (correlationEntry name dim)
  | some _ => throw ("correlation_swap: '" ++ name ++ "' must be an array")

/-- The shadow of a row-major mixing matrix over `lanes` lanes. -/
def CorrelationShadow.ofMixing (lanes : ℕ) (mixing : List (Cplx K)) : CorrelationShadow K :=
  { lanes := lanes
    mixingRe := fun k => (mixing.getD k 0).re
    mixingIm := fun k => (mixing.getD k 0).im }

/-- The factor that `handle_correlation_swap` stages. -/
def stageCorrelation (ctl : BrokerLinkControl K) (kind : String) (rx tx : List (CorrelationEntry K)) :
    Except String (CorrelationShadow K) :=
  if kind = "iid" then do
    rejectIf (!rx.isEmpty || !tx.isEmpty) "correlation_swap: kind: iid takes no entries"
    pure CorrelationShadow.default
  else do
    let mixing ← (laneMixingMatrix { declared := true, kind := .kronecker, rx := rx, tx := tx }
      ctl.ntHint ctl.nrHint).mapError ("correlation_swap: " ++ ·)
    rejectIf (kMaxCorrelatedLanes < ctl.ntHint * ctl.nrHint)
      "correlation_swap: link has more lanes than the cap"
    pure (CorrelationShadow.ofMixing (ctl.ntHint * ctl.nrHint) mixing)

/-- What the checks of `handle_correlation_swap` establish. -/
structure CorrelationRequest (K : Type) where
  linkId : String
  control : BrokerLinkControl K
  staged : CorrelationShadow K
  gate : ℕ

/-- The checks of `handle_correlation_swap`. -/
def correlationRequest (links : LinkMap K) (fields : JsonObject K) :
    Except String (CorrelationRequest K) := do
  let (linkId, ctl) ← swapLink "correlation_swap" links fields
  rejectIf (!ctl.correlationDeclared)
    ("correlation_swap: link " ++ linkId ++
      " declared no spatial_correlation block, so it is not runtime-correlatable " ++
      "(declare `spatial_correlation: \x7bkind: iid\x7d` to opt in)")
  let kind ← getString fields "kind" "kronecker"
  rejectIf (kind ≠ "kronecker" ∧ kind ≠ "iid") "correlation_swap: kind must be 'iid' or 'kronecker'"
  let rx ← readSide fields "rx" ctl.nrHint
  let tx ← readSide fields "tx" ctl.ntHint
  let staged ← stageCorrelation ctl kind rx tx
  let gate ← getNumber fields "take_effect_at_slot" 0
  pure ⟨linkId, ctl, staged, castU64 gate⟩

/-- **`handle_correlation_swap`.** It takes no part in batches and accepts any gate. -/
def handleCorrelationSwap (srv : ControlServer K) (links : LinkMap K) (fields : JsonObject K) :
    Handled K :=
  match correlationRequest links fields with
  | .error reason => srv.emitRejection reason
  | .ok r =>
      srv.commit r.control r.linkId r.gate (.correlation r.staged) fun ctl =>
        .correlationApplied ctl.seqno

/-! ## Profile swaps -/

/-- The tap fields of a `profile_swap` or `matrix_profile_swap`. -/
def tapOfJson (o : JsonObject K) : Except String (TapSpec K) := do
  let delaySamples ← getNumber o "delay_samples" 0
  let gainDb ← getNumber o "gain_db" 0
  let phaseRad ← getNumber o "phase_rad" 0
  let isLos ← getBool o "is_los" false
  let losKDb ← getNumber o "los_k_db" 0
  let losAngleRad ← getNumber o "los_angle_rad" 0
  pure ⟨delaySamples, gainDb, phaseRad, isLos, losKDb, losAngleRad⟩

def delayOutOfRange (tap : TapSpec K) : Prop :=
  tap.delaySamples < 0 ∨ (kMaxProfileDelaySamples : K) < tap.delaySamples

def gainOutOfRange (tap : TapSpec K) : Prop := tap.gainDb < -100 ∨ 20 < tap.gainDb

instance : DecidablePred (delayOutOfRange (K := K)) := fun _ => inferInstanceAs (Decidable (_ ∨ _))

instance : DecidablePred (gainOutOfRange (K := K)) := fun _ => inferInstanceAs (Decidable (_ ∨ _))

/-- The tap loop of `handle_profile_swap`, from index `k` on. -/
def profileTaps : ℕ → List (JsonValue K) → Except String (List (TapSpec K))
  | _, [] => pure []
  | k, .object o :: items => do
      let tap ← (tapOfJson o).mapError ("profile_swap: taps[" ++ toString k ++ "]: " ++ ·)
      rejectIf (delayOutOfRange tap)
        ("profile_swap: taps[" ++ toString k ++ "].delay_samples out of range [0, 1023]")
      rejectIf (gainOutOfRange tap)
        ("profile_swap: taps[" ++ toString k ++ "].gain_db out of range [-100, 20]")
      let rest ← profileTaps (k + 1) items
      pure (tap :: rest)
  | k, _ :: _ => throw ("profile_swap: taps[" ++ toString k ++ "] is not an object")

/-- A tap array zero-padded to its bound. -/
def padTaps (taps : List (TapSpec K)) : Fin kDeviceMaxTaps → TapSpec K := fun k => taps.getD k default

/-- The optional fading block of a `profile_swap`. -/
def stageFading (fields : JsonObject K) (p : ProfileShadow K) : Except String (ProfileShadow K) :=
  match fields.lookup "fading" with
  | none => pure p
  | some (.object f) => do
      let enabled ← (getBool f "enabled" false).mapError ("profile_swap.fading: " ++ ·)
      let fDMaxHz ← (getNumber f "f_d_max_hz" 0).mapError ("profile_swap.fading: " ++ ·)
      let gridUs ← (getNumber f "grid_us" 100).mapError ("profile_swap.fading: " ++ ·)
      let spectrum ← (getString f "spectrum" "jakes").mapError ("profile_swap.fading: " ++ ·)
      rejectIf (spectrum ≠ "jakes")
        "profile_swap: only fading.spectrum='jakes' is supported in v2"
      pure { p with fadingEnabled := enabled, fadingFDMaxHz := fDMaxHz, fadingGridUs := gridUs
                    fadingSpectrum := 0 }
  | some _ => throw "profile_swap: 'fading' must be an object when present"

/-- What the checks of a swap handler establish. -/
structure SwapRequest (K : Type) (P : Type) where
  linkId : String
  control : BrokerLinkControl K
  staged : P
  gate : ℕ
  batch : Option String

/-- The warm-up cap check of `handle_profile_swap`. -/
def profileWarmupCheck (srv : ControlServer K) (ctl : BrokerLinkControl K) : Except String Unit :=
  if 0 < srv.warmupCapSlots ∧ 0 < ctl.dlSizeSamplesHint ∧ 0 < ctl.slotCountHint then
    let warmupSpan := (ctl.dlSizeSamplesHint + ctl.slotCountHint - 1) / ctl.slotCountHint
    if srv.warmupCapSlots < warmupSpan then
      throw ("profile_swap: warmup span " ++ toString warmupSpan ++
        " slots exceeds --control-warmup-cap-slots " ++ toString srv.warmupCapSlots ++
        " (dl_size=" ++ toString ctl.dlSizeSamplesHint ++ ", count=" ++
        toString ctl.slotCountHint ++ ")")
    else pure ()
  else pure ()

/-- The checks of `handle_profile_swap`. -/
def profileRequest (srv : ControlServer K) (links : LinkMap K) (fields : JsonObject K) :
    Except String (SwapRequest K (ProfileShadow K)) := do
  let (linkId, ctl) ← swapLink "profile_swap" links fields
  rejectIf ctl.fixedMimoDeclared
    ("profile_swap: link " ++ linkId ++ " declares fixed_mimo, whose per-lane tap " ++
      "weights carry the matrix; replacing the tap layout would erase it")
  profileWarmupCheck srv ctl
  let items ← arrayField fields "taps" "profile_swap: missing or non-array 'taps'"
  rejectIf items.isEmpty "profile_swap: taps array must not be empty"
  rejectIf (kDeviceMaxTaps < items.length)
    ("profile_swap: taps array exceeds kDeviceMaxTaps (" ++ toString kDeviceMaxTaps ++ ")")
  let taps ← profileTaps 0 items
  let staged ← stageFading fields
    { ProfileShadow.default with nTaps := items.length, taps := padTaps taps }
  let gate ← takeEffectAtSlot "profile_swap: " fields
  let force ← getBool fields "force" false
  let batch ← srv.resolveOptionalBatch fields
  pure ⟨linkId, ctl, { staged with force := force }, gate, batch⟩

/-- `make_profile_swap_reply`. -/
def profileSwapReply (ctl : BrokerLinkControl K) : Reply :=
  .profileApplied ctl.seqno (ControlServer.appliedAtSlot ctl) (ControlServer.appliedAtSlot ctl + 1)

/-- **`handle_profile_swap`.** -/
def handleProfileSwap (srv : ControlServer K) (links : LinkMap K) (fields : JsonObject K) :
    Handled K :=
  match profileRequest srv links fields with
  | .error reason => srv.emitRejection reason
  | .ok r =>
      match r.batch with
      | some bid => srv.stageOp bid ⟨r.linkId, .profile r.staged⟩
      | none => srv.commit r.control r.linkId r.gate (.profile r.staged) profileSwapReply

/-! ## Matrix profile swaps -/

/-- The tap loop of one lane of `handle_matrix_profile_swap`. -/
def laneTaps : List (JsonValue K) → Except String (List (TapSpec K))
  | [] => pure []
  | .object o :: items => do
      let tap ← (tapOfJson o).mapError ("matrix_profile_swap: " ++ ·)
      rejectIf (delayOutOfRange tap) "matrix_profile_swap: tap delay_samples out of range [0, 1023]"
      rejectIf (gainOutOfRange tap) "matrix_profile_swap: tap gain_db out of range [-100, 20]"
      let rest ← laneTaps items
      pure (tap :: rest)
  | _ :: _ => throw "matrix_profile_swap: lane tap is not an object"

/-- One entry of `lanes`: its index in the matrix and its profile. -/
def matrixLane (nt nr : ℕ) (force : Bool) (seen : List ℕ) (o : JsonObject K) :
    Except String (ℕ × ProfileShadow K) := do
  let rxValue ← getNumber o "rx_port" (-1)
  let txValue ← getNumber o "tx_port" (-1)
  let rx := truncInt rxValue
  let tx := truncInt txValue
  rejectIf (rxValue ≠ rx ∨ txValue ≠ tx ∨ rx < 0 ∨ (nr : ℤ) ≤ rx ∨ tx < 0 ∨ (nt : ℤ) ≤ tx)
    "matrix_profile_swap: lane rx_port/tx_port is outside Nr x Nt"
  let laneIndex := rx.toNat * nt + tx.toNat
  rejectIf (laneIndex ∈ seen)
    ("matrix_profile_swap: duplicate lane (rx_port=" ++ toString rx ++ ", tx_port=" ++
      toString tx ++ ")")
  let items ← arrayField o "taps" "matrix_profile_swap: every lane requires a non-empty taps array"
  rejectIf items.isEmpty "matrix_profile_swap: every lane requires a non-empty taps array"
  rejectIf (kDeviceMaxTaps < items.length)
    ("matrix_profile_swap: lane taps exceed kDeviceMaxTaps (" ++ toString kDeviceMaxTaps ++ ")")
  let taps ← laneTaps items
  pure (laneIndex,
    { ProfileShadow.default with nTaps := items.length, taps := padTaps taps, force := force })

/-- The lane loop: `entry` counts the entries, `seen` holds the lanes already filled. -/
def matrixLanes (nt nr : ℕ) (force : Bool) :
    ℕ → List ℕ → MatrixProfileShadow K → List (JsonValue K) → Except String (MatrixProfileShadow K)
  | _, _, staged, [] => pure staged
  | entry, seen, staged, .object o :: items => do
      let (laneIndex, profile) ← matrixLane nt nr force seen o
      matrixLanes nt nr force (entry + 1) (laneIndex :: seen)
        { staged with lanes := fun l => if l.val = laneIndex then profile else staged.lanes l } items
  | entry, _, _, _ :: _ =>
      throw ("matrix_profile_swap: lanes[" ++ toString entry ++ "] is not an object")

/-- The warm-up cap check of `handle_matrix_profile_swap`. -/
def matrixWarmupCheck (srv : ControlServer K) (ctl : BrokerLinkControl K)
    (staged : MatrixProfileShadow K) : Except String Unit :=
  if 0 < srv.warmupCapSlots ∧ 0 < ctl.slotCountHint then
    let requiredSamples :=
      ((List.finRange kMaxCorrelatedLanes).take staged.laneCount).foldl (fun required l =>
        (staged.lanes l).tapList.foldl (fun required tap =>
          max required (⌈tap.delaySamples⌉.toNat + kTdlFracFilterTaps)) required) 0
    let warmupSpan := (requiredSamples + ctl.slotCountHint - 1) / ctl.slotCountHint
    if srv.warmupCapSlots < warmupSpan then
      throw ("matrix_profile_swap: warmup span " ++ toString warmupSpan ++
        " slots exceeds --control-warmup-cap-slots " ++ toString srv.warmupCapSlots)
    else pure ()
  else pure ()

/-- The dimensions of a `matrix_profile_swap`, checked against the prepared link. -/
def matrixDimensions (ctl : BrokerLinkControl K) (fields : JsonObject K) : Except String Unit := do
  let ntValue ← getNumber fields "nt" 0
  let nrValue ← getNumber fields "nr" 0
  let nt := truncInt ntValue
  let nr := truncInt nrValue
  rejectIf (ntValue ≠ nt ∨ nrValue ≠ nr ∨ nt ≤ 0 ∨ nr ≤ 0)
    "matrix_profile_swap: nt and nr must be positive integers"
  rejectIf (nt ≠ ctl.ntHint ∨ nr ≠ ctl.nrHint)
    ("matrix_profile_swap: dimensions " ++ toString nr ++ "x" ++ toString nt ++
      " do not match prepared link " ++ toString ctl.nrHint ++ "x" ++ toString ctl.ntHint)
  rejectIf (kMaxCorrelatedLanes < ctl.ntHint * ctl.nrHint)
    ("matrix_profile_swap: Nr x Nt exceeds kMaxCorrelatedLanes (" ++
      toString kMaxCorrelatedLanes ++ ")")

/-- The checks of `handle_matrix_profile_swap`. -/
def matrixRequest (srv : ControlServer K) (links : LinkMap K) (fields : JsonObject K) :
    Except String (SwapRequest K (MatrixProfileShadow K)) := do
  let (linkId, ctl) ← swapLink "matrix_profile_swap" links fields
  rejectIf (!ctl.matrixProfileSupported)
    ("matrix_profile_swap: dynamic matrices require the CUDA device-channel route; " ++
      "this link uses unsupported host staging")
  rejectIf ctl.fixedMimoDeclared
    ("matrix_profile_swap: link " ++ linkId ++
      " declares fixed_mimo; dynamic matrices require every Nr x Nt lane to be preallocated")
  matrixDimensions ctl fields
  let items ← arrayField fields "lanes" "matrix_profile_swap: missing or non-array 'lanes'"
  rejectIf (items.length ≠ ctl.ntHint * ctl.nrHint)
    "matrix_profile_swap: lanes must contain exactly Nr x Nt entries"
  let force ← getBool fields "force" false
  let gate ← takeEffectAtSlot "matrix_profile_swap: " fields
  let staged ← matrixLanes ctl.ntHint ctl.nrHint force 0 []
    { MatrixProfileShadow.default with
      nt := ctl.ntHint, nr := ctl.nrHint, laneCount := ctl.ntHint * ctl.nrHint } items
  matrixWarmupCheck srv ctl staged
  let batch ← srv.resolveOptionalBatch fields
  pure ⟨linkId, ctl, staged, gate, batch⟩

/-- **`handle_matrix_profile_swap`.** -/
def handleMatrixProfileSwap (srv : ControlServer K) (links : LinkMap K) (fields : JsonObject K) :
    Handled K :=
  match matrixRequest srv links fields with
  | .error reason => srv.emitRejection reason
  | .ok r =>
      match r.batch with
      | some bid => srv.stageOp bid ⟨r.linkId, .matrix r.staged⟩
      | none => srv.commit r.control r.linkId r.gate (.matrix r.staged) profileSwapReply

/-! ## Batches -/

/-- The string `id` of a batch message. -/
def batchId (kind : String) (fields : JsonObject K) : Except String String :=
  match fields.lookup "id" with
  | some (.string bid) => .ok bid
  | _ => .error (kind ++ ": missing or non-string 'id'")

/-- **`handle_batch_begin`.** -/
def handleBatchBegin (srv : ControlServer K) (fields : JsonObject K) : Handled K :=
  match batchId "batch_begin" fields with
  | .error reason => srv.emitRejection reason
  | .ok bid =>
      if bid.isEmpty then srv.emitRejection "batch_begin: 'id' must be non-empty"
      else if (srv.openBatches.lookup bid).isSome then
        srv.emitRejection ("batch_begin: id already open: " ++ bid)
      else
        { server := { srv with openBatches := srv.openBatches ++ [(bid, [])] }
          published := [], reply := .batchBegun bid }

/-- The links a commit answers for, each with its last seqno and warm-up hint. -/
def commitLinks (applyAt : ℕ) (links : LinkMap K) :
    List (String × ℕ × Option ℕ) → List (StagedOp K) → List (String × ℕ × Option ℕ)
  | acc, [] => acc
  | acc, op :: ops =>
      let links := (Publication.mk op.linkId applyAt op.update).perform links
      match links op.linkId with
      | none => commitLinks applyAt links acc ops
      | some ctl =>
          let effectiveSlot := if ctl.currentSlot < applyAt then applyAt else ctl.currentSlot + 1
          let old := (acc.lookup op.linkId).bind (·.2)
          let warmup := match op.update with
            | .scalar _ _ => old
            | _ => some (effectiveSlot + 1)
          commitLinks applyAt links
            (acc.filter (·.1 ≠ op.linkId) ++ [(op.linkId, ctl.seqno, warmup)]) ops

/-- An open batch of this id. -/
def openBatch (srv : ControlServer K) (kind bid : String) : Except String (List (StagedOp K)) :=
  match srv.openBatches.lookup bid with
  | none => .error (kind ++ ": unknown id: " ++ bid)
  | some ops => .ok ops

/-- The checks of `handle_batch_commit`. -/
def commitRequest (srv : ControlServer K) (fields : JsonObject K) :
    Except String (String × List (StagedOp K) × ℕ) := do
  let bid ← batchId "batch_commit" fields
  let ops ← openBatch srv "batch_commit" bid
  let applyAt ← takeEffectAtSlot "batch_commit: " fields
  pure (bid, ops, applyAt)

/-- **`handle_batch_commit`.** The ops in order, all behind the commit's gate; an op whose
link is not in the map is skipped.  The reply lists the links by their first op, where the source
walks a hash map. -/
def handleBatchCommit (srv : ControlServer K) (links : LinkMap K) (fields : JsonObject K) :
    Handled K :=
  match commitRequest srv fields with
  | .error reason => srv.emitRejection reason
  | .ok (bid, ops, applyAt) =>
      let known := ops.filter fun op => (links op.linkId).isSome
      { server := { srv with
          openBatches := srv.openBatches.filter (·.1 ≠ bid)
          batchesCommitted := srv.batchesCommitted + 1 }
        published := known.map fun op => ⟨op.linkId, applyAt, op.update⟩
        reply := .batchCommitted bid (if srv.backendName.isEmpty then "unknown" else srv.backendName)
          known.length applyAt (commitLinks applyAt links [] known) }

/-- **`handle_batch_abort`.** -/
def handleBatchAbort (srv : ControlServer K) (fields : JsonObject K) : Handled K :=
  match (do
      let bid ← batchId "batch_abort" fields
      let ops ← openBatch srv "batch_abort" bid
      pure (bid, ops)) with
  | .error reason => srv.emitRejection reason
  | .ok (bid, ops) =>
      { server := { srv with
          openBatches := srv.openBatches.filter (·.1 ≠ bid)
          batchesAborted := srv.batchesAborted + 1 }
        published := [], reply := .batchAborted ops.length }

/-! ## Dispatch -/

/-- The dispatch of `handle_message` on the `type` field. -/
def dispatch (srv : ControlServer K) (links : LinkMap K) (fields : JsonObject K) : Handled K :=
  match getString fields "type" "scalar" with
  | .error reason => srv.emitRejection reason
  | .ok type =>
      if type = "scalar" then handleScalarUpdate srv links fields
      else if type = "profile_swap" then handleProfileSwap srv links fields
      else if type = "matrix_profile_swap" then handleMatrixProfileSwap srv links fields
      else if type = "correlation_swap" then handleCorrelationSwap srv links fields
      else if type = "batch_begin" then handleBatchBegin srv fields
      else if type = "batch_commit" then handleBatchCommit srv links fields
      else if type = "batch_abort" then handleBatchAbort srv fields
      else srv.emitRejection ("unknown message type: " ++ type)

/-- **`handle_message`**, on a body that parses. -/
def handleMessage (srv : ControlServer K) (links : LinkMap K) (fields : JsonObject K) : Handled K :=
  dispatch { srv with msgsReceived := srv.msgsReceived + 1 } links fields

end Handlers
