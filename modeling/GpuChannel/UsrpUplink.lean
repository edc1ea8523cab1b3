/-
# The uplink of the radio bridge

The UL thread of `usrp_zmq_bridge.cpp` pulls blocks from the broker and sends them to the radio
at the absolute time that `segs` gives for their first sample.  A late head is cut off, silent
blocks are not sent, and blocks that continue each other go out as one burst, whose later
packets carry no time: the radio places them behind what it took before.

The transmit streamer of the radio is not part of the repository.  It is a parameter here, and
what the statements need of it is `Radio.Streams`: it may take less than a send offers, which the
thread does not look at.

Times are sample indices counted from sample 0.  How far a block is ahead of the device clock
is an input of the step.
-/
import GpuChannel.Library.Numerals
import GpuChannel.UsrpDownlink

namespace UsrpBridge

/-! ## The radio -/

/-- Samples on air, one behind the other. -/
def onAir {α : Type*} (start : ℤ) (samples : List α) : List (ℤ × α) :=
  samples.mapIdx fun j x => (start + j, x)

/-- `uhd::tx_streamer`.  A `send` is given a start, or none when its packet carries no time, and
shows what goes on air by it; a packet without samples ends the burst. -/
structure Radio (ρ α : Type*) where
  idle : ρ
  send : ρ → Option ℤ → List α → ρ × List (ℤ × α)
  endBurst : ρ → ρ

/-- **What the radio promises.** It takes the first samples of a send, all of them unless the send
ends short, and places them from the given time on, or right behind the last sample it took. -/
structure Radio.Streams {ρ α : Type*} (radio : Radio ρ α) (next : ρ → ℤ) : Prop where
  timed : ∀ r start samples, ∃ k ≤ samples.length,
    (radio.send r (some start) samples).2 = onAir start (samples.take k) ∧
      next (radio.send r (some start) samples).1 = start + k
  continued : ∀ r samples, ∃ k ≤ samples.length,
    (radio.send r none samples).2 = onAir (next r) (samples.take k) ∧
      next (radio.send r none samples).1 = next r + k

/-! ## The thread -/

/-- The options of the uplink. -/
structure UplinkOptions (K : Type) where
  ulOffset : ℤ
  txAdv : ℤ
  minLeadUs : K
  rate : K
  dryTx : Bool

/-- The size of the receive buffer, in samples; what a longer payload has behind it is lost. -/
def kMaxPayload : ℕ := 2 ^ 20

/-- One `send`: the stream index of the first sample, the samples that are passed to the radio,
what goes on air of them, and the mapping that the block found. -/
structure Sent (α : Type*) where
  stream : ℕ
  samples : List α
  air : List (ℤ × α)
  dlBase : ℤ
  segs : List (ℕ × ℤ)

/-- The state of the UL thread and of its radio.  `streamIdx` counts the samples of all
payloads. -/
structure Uplink (ρ α : Type*) where
  ulIdx : ℕ
  streamIdx : ℕ
  burstOpen : Bool
  burstNext : ℤ
  radio : ρ
  sent : List (Sent α)

structure Bridge (ρ α : Type*) where
  down : Downlink α
  up : Uplink ρ α

inductive BridgeAction (α : Type*)
  | down (a : DownlinkAction α)
  | block (payload : List α) (leadUs : ℤ)

namespace Bridge

section Thread

variable {ρ α : Type*} [Zero α] [DecidableEq α] {K : Type} [Field K] [LinearOrder K] [FloorRing K]

def init (radio : Radio ρ α) (down : DownlinkOptions) : Bridge ρ α where
  down := Downlink.init down
  up := { ulIdx := 0, streamIdx := 0, burstOpen := false, burstNext := 0, radio := radio.idle,
          sent := [] }

/-- The head of a block of `n` samples that is cut off when the block is late. -/
def lateHead (opts : UplinkOptions K) (n : ℕ) (leadUs : ℤ) : ℕ :=
  min n ⌈(opts.minLeadUs - leadUs) / 1000000 * opts.rate⌉.toNat

/-- What is cut off. -/
def cutHead (opts : UplinkOptions K) (n : ℕ) (leadUs : ℤ) : ℕ :=
  if (leadUs : K) < opts.minLeadUs then lateHead opts n leadUs else 0

/-- The block carries signal and some of it is in time. -/
def Carries (opts : UplinkOptions K) (data : List α) (leadUs : ℤ) : Prop :=
  ¬ (∀ x ∈ data, x = 0) ∧
    ¬ ((leadUs : K) < opts.minLeadUs ∧ cutHead opts data.length leadUs = data.length)

instance (opts : UplinkOptions K) (data : List α) (leadUs : ℤ) :
    Decidable (Carries opts data leadUs) :=
  inferInstanceAs (Decidable (_ ∧ _))

/-- The time base of a block: the absolute index of its first sample. -/
def timeBase (opts : UplinkOptions K) (down : Downlink α) (up : Uplink ρ α) : ℤ :=
  up.ulIdx + deltaAt down.dlBase down.segs up.ulIdx + opts.ulOffset - opts.txAdv

/-- `start`: where the first sample behind the cut belongs by the time base. -/
def blockStart (opts : UplinkOptions K) (down : Downlink α) (up : Uplink ρ α) (n : ℕ)
    (leadUs : ℤ) : ℤ :=
  timeBase opts down up + cutHead opts n leadUs

/-- The block continues the open burst: neither a late head nor its start closes it. -/
def Continues (opts : UplinkOptions K) (down : Downlink α) (up : Uplink ρ α) (n : ℕ)
    (leadUs : ℤ) : Prop :=
  up.burstOpen = true ∧ ¬ (leadUs : K) < opts.minLeadUs ∧
    blockStart opts down up n leadUs = up.burstNext

instance (opts : UplinkOptions K) (down : Downlink α) (up : Uplink ρ α) (n : ℕ) (leadUs : ℤ) :
    Decidable (Continues opts down up n leadUs) :=
  inferInstanceAs (Decidable (_ ∧ _))

/-- **`close_burst`.** -/
def closeBurst (radio : Radio ρ α) (opts : UplinkOptions K) (up : Uplink ρ α) : Uplink ρ α :=
  { up with
    burstOpen := false
    radio := if up.burstOpen && !opts.dryTx then radio.endBurst up.radio else up.radio }

/-- The send of a block, behind the close of a burst that it does not continue.  The result of the
send, how many samples were taken, is not looked at. -/
def sendBlock (radio : Radio ρ α) (opts : UplinkOptions K) (down : Downlink α) (up : Uplink ρ α)
    (data : List α) (leadUs : ℤ) : ρ × List (ℤ × α) :=
  let behindCut := data.drop (cutHead opts data.length leadUs)
  if Continues opts down up data.length leadUs then radio.send up.radio none behindCut
  else
    radio.send (closeBurst radio opts up).radio
      (some (blockStart opts down up data.length leadUs)) behindCut

/-- The loop body of the UL thread, for a payload that has arrived. -/
def transmit (radio : Radio ρ α) (opts : UplinkOptions K) (down : Downlink α) (up : Uplink ρ α)
    (payload : List α) (leadUs : ℤ) : Uplink ρ α :=
  let data := payload.take kMaxPayload
  let n := data.length
  if n = 0 then up
  else
    let moved := { up with ulIdx := up.ulIdx + n, streamIdx := up.streamIdx + payload.length }
    if Carries opts data leadUs then
      let skip := cutHead opts n leadUs
      let ready :=
        { moved with
          burstOpen := true, burstNext := blockStart opts down up n leadUs + (n - skip : ℕ) }
      if opts.dryTx then ready
      else
        let result := sendBlock radio opts down up data leadUs
        { ready with
          radio := result.1
          sent := up.sent ++
            [{ stream := up.streamIdx + skip, samples := data.drop skip, air := result.2
               dlBase := down.dlBase, segs := down.segs }] }
    else closeBurst radio opts moved

/-- One access of the downlink or one block of the uplink; the UL thread waits for the first DL
request. -/
def step (radio : Radio ρ α) (downOpts : DownlinkOptions) (opts : UplinkOptions K)
    (s : Bridge ρ α) : BridgeAction α → Bridge ρ α
  | .down a => { s with down := Downlink.step downOpts s.down a }
  | .block payload leadUs =>
      if s.down.dlBase < 0 then s
      else { s with up := transmit radio opts s.down s.up payload leadUs }

def run (radio : Radio ρ α) (downOpts : DownlinkOptions) (opts : UplinkOptions K)
    (actions : List (BridgeAction α)) : Bridge ρ α :=
  actions.foldl (step radio downOpts opts) (init radio downOpts)

end Thread

/-! ## The claim of the time base -/

section Statement

variable {ρ α : Type*} {K : Type}

/-- Where a sample of the stream belongs: its stream index and the offset of the last segment at
or before it. -/
def placeOf (opts : UplinkOptions K) (p : Sent α) (u : ℕ) : ℤ :=
  u + deltaAt p.dlBase p.segs u + opts.ulOffset - opts.txAdv

/-- What is on air of a packet are its first samples, each of them where it belongs. -/
def Aligned (opts : UplinkOptions K) (p : Sent α) : Prop :=
  p.air = (p.samples.take p.air.length).mapIdx fun j x => (placeOf opts p (p.stream + j), x)

instance [DecidableEq α] (opts : UplinkOptions K) (p : Sent α) : Decidable (Aligned opts p) :=
  inferInstanceAs (Decidable (_ = _))

variable [Zero α] [DecidableEq α] [Field K] [LinearOrder K] [FloorRing K]

/-- Of a block of which the radio takes samples nothing has been lost before it, no segment starts
behind its first sample and before the last one taken, and it does not continue a burst of which
a send has ended short. -/
def OneSegment (radio : Radio ρ α) (next : ρ → ℤ) (opts : UplinkOptions K) (s : Bridge ρ α) :
    BridgeAction α → Prop
  | .down _ => True
  | .block payload leadUs =>
      let data := payload.take kMaxPayload
      let taken := (sendBlock radio opts s.down s.up data leadUs).2.length
      ¬ s.down.dlBase < 0 → opts.dryTx = false → Carries opts data leadUs → taken ≠ 0 →
        s.up.streamIdx = s.up.ulIdx ∧
        (∀ e ∈ s.down.segs, ¬ (s.up.ulIdx < e.1 ∧
          e.1 < s.up.ulIdx + cutHead opts data.length leadUs + taken)) ∧
        (Continues opts s.down s.up data.length leadUs → next s.up.radio = s.up.burstNext)

instance (radio : Radio ρ α) (next : ρ → ℤ) (opts : UplinkOptions K) (s : Bridge ρ α) :
    ∀ a, Decidable (OneSegment radio next opts s a)
  | .down _ => .isTrue trivial
  | .block _ _ => inferInstanceAs (Decidable (_ → _))

end Statement

end Bridge

/-! ## Offsets -/

section Offsets

variable {base : ℤ} {segs : List (ℕ × ℤ)}

/-- Every offset in force is the base or that of an entry. -/
theorem deltaAt_lt {d : ℤ} (hbase : base < d) (hsegs : ∀ e ∈ segs, e.2 < d) (u : ℕ) :
    deltaAt base segs u < d := by
  unfold deltaAt
  split
  case h_1 => exact hbase
  case h_2 e he => exact hsegs e (List.mem_reverse.mp (List.mem_of_find?_eq_some he))

/-- An entry at position 0 that repeats the base changes no offset. -/
theorem deltaAt_cons_base (u : ℕ) : deltaAt base ((0, base) :: segs) u = deltaAt base segs u := by
  induction segs using List.reverseRecOn with
  | nil => rfl
  | append_singleton segs e ih =>
    rw [← List.cons_append, deltaAt_append, deltaAt_append, ih]

/-- Offsets do not fall along the stream, and they differ exactly across an entry. -/
theorem deltaAt_spec (hbase : ∀ e ∈ segs, base < e.2)
    (horder : segs.Pairwise fun a b => a.1 ≤ b.1 ∧ a.2 < b.2) {u v : ℕ} (huv : u ≤ v) :
    deltaAt base segs u ≤ deltaAt base segs v ∧
      (deltaAt base segs u = deltaAt base segs v ↔ ∀ e ∈ segs, ¬ (u < e.1 ∧ e.1 ≤ v)) := by
  induction segs using List.reverseRecOn with
  | nil =>
    refine ⟨le_refl _, fun _ e he => ?_, fun _ => rfl⟩
    cases he
  | append_singleton segs e ih =>
    obtain ⟨hrest, -, hlast⟩ := List.pairwise_append.mp horder
    have hbefore : ∀ e' ∈ segs, e'.1 ≤ e.1 ∧ e'.2 < e.2 :=
      fun e' he' => hlast e' he' e (List.mem_singleton_self e)
    have hnew : base < e.2 := hbase e (List.mem_append_right _ (List.mem_singleton_self e))
    obtain ⟨hle, hiff⟩ := ih (fun e' he' => hbase e' (List.mem_append_left _ he')) hrest
    rw [deltaAt_append, deltaAt_append]
    by_cases hu : e.1 ≤ u
    · -- both behind the last entry
      rw [if_pos hu, if_pos (le_trans hu huv)]
      refine ⟨le_refl _, fun _ e' he' => ?_, fun _ => rfl⟩
      rcases List.mem_append.mp he' with hmem | hmem
      · have := (hbefore e' hmem).1
        omega
      · obtain rfl := List.mem_singleton.mp hmem
        omega
    · rw [if_neg hu]
      by_cases hv : e.1 ≤ v
      · -- the last entry separates them
        rw [if_pos hv]
        have hlt := deltaAt_lt hnew (fun e' he' => (hbefore e' he').2) u
        refine ⟨hlt.le, fun heq => absurd heq (ne_of_lt hlt), fun hnone => ?_⟩
        exact absurd ⟨by omega, hv⟩
          (hnone e (List.mem_append_right _ (List.mem_singleton_self e)))
      · rw [if_neg hv]
        refine ⟨hle, ?_⟩
        rw [hiff]
        refine ⟨fun hnone e' he' => ?_, fun hnone e' he' => hnone e' (List.mem_append_left _ he')⟩
        rcases List.mem_append.mp he' with hmem | hmem
        · exact hnone e' hmem
        · obtain rfl := List.mem_singleton.mp hmem
          omega

end Offsets

/-! ## One block -/

namespace Bridge

section Mapped

variable {α : Type*}

/-- The offsets of a mapping that the downlink has recorded. -/
theorem deltaAt_mapped {downOpts : DownlinkOptions} {down : Downlink α}
    (hmap : Downlink.MapInv downOpts down) (hbase : 0 ≤ down.dlBase) {u v : ℕ} (huv : u ≤ v) :
    deltaAt down.dlBase down.segs u ≤ deltaAt down.dlBase down.segs v ∧
      (deltaAt down.dlBase down.segs u = deltaAt down.dlBase down.segs v ↔
        ∀ e ∈ down.segs, ¬ (u < e.1 ∧ e.1 ≤ v)) := by
  obtain ⟨rest, hsegs⟩ := List.head?_eq_some_iff.mp (hmap.first hbase)
  have horder := hmap.order
  rw [hsegs] at horder ⊢
  obtain ⟨hfirst, hrest⟩ := List.pairwise_cons.mp horder
  obtain ⟨hle, hiff⟩ := deltaAt_spec (fun e he => (hfirst e he).2.1)
    (hrest.imp fun h => ⟨h.1, h.2.1⟩) huv
  rw [deltaAt_cons_base, deltaAt_cons_base]
  refine ⟨hle, ?_⟩
  rw [hiff, List.forall_mem_cons]
  refine ⟨fun hnone => ⟨?_, hnone⟩, fun hnone => hnone.2⟩
  rintro ⟨hlt, -⟩
  exact absurd hlt (Nat.not_lt_zero u)

/-- **The time base of a block.** It is right for all the samples behind the cut exactly if
nothing has been lost before the block and no segment starts behind its first sample. -/
theorem timeBase_right_iff {downOpts : DownlinkOptions} {down : Downlink α}
    (hmap : Downlink.MapInv downOpts down) (hbase : 0 ≤ down.dlBase) {ulIdx streamIdx skip n : ℕ}
    (hskip : skip < n) (hidx : ulIdx ≤ streamIdx) (c : ℤ) :
    (∀ j < n - skip, (ulIdx : ℤ) + deltaAt down.dlBase down.segs ulIdx + c + skip + j
        = (streamIdx + skip + j : ℕ)
          + deltaAt down.dlBase down.segs (streamIdx + skip + j) + c) ↔
      streamIdx = ulIdx ∧ ∀ e ∈ down.segs, ¬ (ulIdx < e.1 ∧ e.1 < ulIdx + n) := by
  constructor
  · intro h
    -- the last sample of the block
    have hlast := h (n - skip - 1) (by omega)
    rw [show streamIdx + skip + (n - skip - 1) = streamIdx + n - 1 by omega] at hlast
    obtain ⟨hle, -⟩ := deltaAt_mapped hmap hbase (show ulIdx ≤ streamIdx + n - 1 by omega)
    have hidx' : streamIdx = ulIdx := by omega
    subst hidx'
    refine ⟨rfl, fun e he hin => ?_⟩
    have heq : deltaAt down.dlBase down.segs streamIdx
        = deltaAt down.dlBase down.segs (streamIdx + n - 1) := by omega
    have hnone := (deltaAt_mapped hmap hbase (by omega)).2.mp heq e he
    omega
  · rintro ⟨rfl, hnone⟩ j hj
    have heq : deltaAt down.dlBase down.segs streamIdx
        = deltaAt down.dlBase down.segs (streamIdx + skip + j) := by
      apply (deltaAt_mapped hmap hbase (by omega)).2.mpr
      intro e he hin
      exact hnone e he (by omega)
    rw [← heq]
    push_cast
    ring

end Mapped

section Cut

variable {α : Type*} [Zero α] {K : Type} [Field K] [LinearOrder K] [FloorRing K]

/-- No more is cut off than there is. -/
theorem cutHead_le (opts : UplinkOptions K) (n : ℕ) (leadUs : ℤ) : cutHead opts n leadUs ≤ n := by
  unfold cutHead lateHead
  split
  · exact min_le_left _ _
  · exact Nat.zero_le n

/-- Of a block that carries something the cut leaves a sample. -/
theorem cutHead_lt {opts : UplinkOptions K} {data : List α} {leadUs : ℤ}
    (h : Carries opts data leadUs) : cutHead opts data.length leadUs < data.length := by
  obtain ⟨hsignal, hintime⟩ := h
  have hle := cutHead_le opts data.length leadUs
  by_contra hnot
  have hall : cutHead opts data.length leadUs = data.length := by omega
  by_cases hlate : (leadUs : K) < opts.minLeadUs
  · exact hintime ⟨hlate, hall⟩
  · have hzero : data.length = 0 := by
      rw [← hall, cutHead, if_neg hlate]
    apply hsignal
    intro x hx
    rw [List.length_eq_zero_iff.mp hzero] at hx
    cases hx

end Cut

section Air

variable {α : Type*} {K : Type}

@[simp] theorem length_onAir (start : ℤ) (samples : List α) :
    (onAir start samples).length = samples.length :=
  List.length_mapIdx

/-- A packet of which the first samples are on air in one piece is aligned exactly if every one of
them is where it belongs. -/
theorem aligned_iff {opts : UplinkOptions K} {p : Sent α} {start : ℤ} {k : ℕ}
    (hk : k ≤ p.samples.length) (hair : p.air = onAir start (p.samples.take k)) :
    Aligned opts p ↔ ∀ j < k, start + j = placeOf opts p (p.stream + j) := by
  have hlength : (p.samples.take k).length = k := by
    rw [List.length_take, min_eq_left hk]
  have hair_length : p.air.length = k := by
    rw [hair, length_onAir, hlength]
  unfold Aligned
  rw [hair_length, hair, onAir, List.mapIdx_eq_mapIdx_iff]
  constructor
  · intro h j hj
    exact congrArg Prod.fst (h j (by omega))
  · intro h j hj
    rw [h j (by omega)]

end Air

section Send

variable {ρ α : Type*} {K : Type} [Field K] [LinearOrder K] [FloorRing K]

/-- **The state of the uplink.** The mapping is one that the downlink has recorded, the index
counts no more than has arrived, and the radio is not ahead of an open burst. -/
structure UplinkInv (next : ρ → ℤ) (downOpts : DownlinkOptions) (opts : UplinkOptions K)
    (s : Bridge ρ α) : Prop where
  map : Downlink.MapInv downOpts s.down
  index : s.up.ulIdx ≤ s.up.streamIdx
  burst : opts.dryTx = false → s.up.burstOpen = true → next s.up.radio ≤ s.up.burstNext

variable {radio : Radio ρ α} {next : ρ → ℤ} {downOpts : DownlinkOptions} {opts : UplinkOptions K}
  {s : Bridge ρ α}

/-- **The send of a block.** The first samples behind the cut go on air in one piece: at the start
of the block, or, when the block continues a burst, where the radio stands. -/
theorem sendBlock_eq (opts : UplinkOptions K) (hradio : radio.Streams next) (down : Downlink α)
    (up : Uplink ρ α) (data : List α) (leadUs : ℤ) :
    ∃ start k, k ≤ (data.drop (cutHead opts data.length leadUs)).length ∧
      (sendBlock radio opts down up data leadUs).2
        = onAir start ((data.drop (cutHead opts data.length leadUs)).take k) ∧
      next (sendBlock radio opts down up data leadUs).1 = start + k ∧
      start = if Continues opts down up data.length leadUs then next up.radio
        else blockStart opts down up data.length leadUs := by
  unfold sendBlock
  dsimp only
  by_cases hcontinues : Continues opts down up data.length leadUs
  · rw [if_pos hcontinues, if_pos hcontinues]
    obtain ⟨k, hk, hair, hnext⟩ := hradio.continued up.radio
      (data.drop (cutHead opts data.length leadUs))
    exact ⟨_, k, hk, hair, hnext, rfl⟩
  · rw [if_neg hcontinues, if_neg hcontinues]
    obtain ⟨k, hk, hair, hnext⟩ := hradio.timed (closeBurst radio opts up).radio
      (blockStart opts down up data.length leadUs) (data.drop (cutHead opts data.length leadUs))
    exact ⟨_, k, hk, hair, hnext, rfl⟩

/-- A block that continues a burst does so at the end of what has been sent in it. -/
theorem sendStart_le (h : UplinkInv next downOpts opts s) (hdry : opts.dryTx = false) (n : ℕ)
    (leadUs : ℤ) :
    (if Continues opts s.down s.up n leadUs then next s.up.radio
      else blockStart opts s.down s.up n leadUs) ≤ blockStart opts s.down s.up n leadUs := by
  split
  case isTrue hcontinues =>
    obtain ⟨hopen, -, hnext⟩ := hcontinues
    rw [hnext]
    exact h.burst hdry hopen
  case isFalse => exact le_refl _

/-- **The packet of a block** of which the radio takes samples is aligned exactly if they lie inside
one segment and the radio starts them at the start of the block. -/
theorem aligned_packet (h : UplinkInv next downOpts opts s) (hbase : 0 ≤ s.down.dlBase)
    {data : List α} {leadUs start : ℤ} {k : ℕ} (hsome : k ≠ 0)
    (hstart : start ≤ blockStart opts s.down s.up data.length leadUs) :
    (∀ j < k, start + j =
      ((s.up.streamIdx + cutHead opts data.length leadUs + j : ℕ) : ℤ)
        + deltaAt s.down.dlBase s.down.segs (s.up.streamIdx + cutHead opts data.length leadUs + j)
        + opts.ulOffset - opts.txAdv) ↔
      s.up.streamIdx = s.up.ulIdx ∧
      (∀ e ∈ s.down.segs, ¬ (s.up.ulIdx < e.1 ∧
        e.1 < s.up.ulIdx + cutHead opts data.length leadUs + k)) ∧
      start = blockStart opts s.down s.up data.length leadUs := by
  have hright := timeBase_right_iff h.map hbase
    (show cutHead opts data.length leadUs < cutHead opts data.length leadUs + k by omega) h.index
    (opts.ulOffset - opts.txAdv)
  rw [Nat.add_sub_cancel_left, ← add_assoc] at hright
  rw [← and_assoc, ← hright]
  unfold blockStart timeBase at *
  constructor
  · intro hall
    -- the first sample is not placed before the start of the block
    have hfirst := hall 0 (by omega)
    have hmono := (deltaAt_mapped h.map hbase (show s.up.ulIdx
      ≤ s.up.streamIdx + cutHead opts data.length leadUs + 0 by have := h.index; omega)).1
    have hindex := h.index
    have heq : start = s.up.ulIdx + deltaAt s.down.dlBase s.down.segs s.up.ulIdx + opts.ulOffset
        - opts.txAdv + cutHead opts data.length leadUs := by omega
    refine ⟨fun j hj => ?_, heq⟩
    have hj' := hall j hj
    omega
  · rintro ⟨hall, rfl⟩ j hj
    have hj' := hall j hj
    omega

/-- The packet of a block is aligned exactly if its step meets the condition. -/
theorem aligned_sent (hradio : radio.Streams next) (h : UplinkInv next downOpts opts s)
    (hdry : opts.dryTx = false) (hbase : 0 ≤ s.down.dlBase) {data : List α} {leadUs : ℤ} :
    Aligned opts
        { stream := s.up.streamIdx + cutHead opts data.length leadUs
          samples := data.drop (cutHead opts data.length leadUs)
          air := (sendBlock radio opts s.down s.up data leadUs).2
          dlBase := s.down.dlBase, segs := s.down.segs } ↔
      ((sendBlock radio opts s.down s.up data leadUs).2.length ≠ 0 →
        s.up.streamIdx = s.up.ulIdx ∧
        (∀ e ∈ s.down.segs, ¬ (s.up.ulIdx < e.1 ∧ e.1 < s.up.ulIdx
          + cutHead opts data.length leadUs
          + (sendBlock radio opts s.down s.up data leadUs).2.length)) ∧
        (Continues opts s.down s.up data.length leadUs → next s.up.radio = s.up.burstNext)) := by
  obtain ⟨start, k, hk, hair, -, hstart⟩ :=
    sendBlock_eq opts hradio s.down s.up data leadUs
  have hlength : (sendBlock radio opts s.down s.up data leadUs).2.length = k := by
    rw [hair, length_onAir, List.length_take, min_eq_left hk]
  rw [hlength, aligned_iff hk hair]
  unfold placeOf
  dsimp only
  by_cases hnone : k = 0
  · subst hnone
    exact ⟨fun _ hsome => absurd rfl hsome, fun _ j hj => absurd hj (Nat.not_lt_zero j)⟩
  have hle := sendStart_le h hdry data.length leadUs
  rw [← hstart] at hle
  rw [aligned_packet h hbase hnone hle, hstart]
  -- a send without a time starts at the start of the block exactly if the radio stands there
  have hplace : (if Continues opts s.down s.up data.length leadUs then next s.up.radio
      else blockStart opts s.down s.up data.length leadUs)
        = blockStart opts s.down s.up data.length leadUs ↔
      (Continues opts s.down s.up data.length leadUs → next s.up.radio = s.up.burstNext) := by
    by_cases hcontinues : Continues opts s.down s.up data.length leadUs
    · rw [if_pos hcontinues, hcontinues.2.2]
      exact ⟨fun heq _ => heq, fun heq => heq hcontinues⟩
    · rw [if_neg hcontinues]
      exact ⟨fun _ hin => absurd hin hcontinues, fun _ => rfl⟩
  rw [hplace]
  exact ⟨fun hall _ => hall, fun hall => hall hnone⟩

end Send

/-! ## Steps -/

section Step

variable {ρ α : Type*} [Zero α] [DecidableEq α] {K : Type} [Field K] [LinearOrder K] [FloorRing K]
  {radio : Radio ρ α} {next : ρ → ℤ} {downOpts : DownlinkOptions} {opts : UplinkOptions K}
  {s : Bridge ρ α}

/-- A block keeps the state: the radio takes no more than it is given. -/
theorem UplinkInv.transmit (hradio : radio.Streams next) (h : UplinkInv next downOpts opts s)
    (payload : List α) (leadUs : ℤ) :
    UplinkInv next downOpts opts
      { s with up := transmit radio opts s.down s.up payload leadUs } := by
  have htake : (payload.take kMaxPayload).length ≤ payload.length := by
    rw [List.length_take]
    exact min_le_right _ _
  have hindex := h.index
  refine ⟨h.map, ?_, ?_⟩
  · show (Bridge.transmit radio opts s.down s.up payload leadUs).ulIdx
      ≤ (Bridge.transmit radio opts s.down s.up payload leadUs).streamIdx
    unfold Bridge.transmit
    dsimp only
    split
    · exact hindex
    · split
      · split <;> (dsimp only; omega)
      · dsimp only [closeBurst]
        omega
  · intro hdry hopen
    unfold Bridge.transmit at hopen ⊢
    dsimp only at hopen ⊢
    split at hopen
    case isTrue hempty =>
      rw [if_pos hempty]
      exact h.burst hdry hopen
    case isFalse hempty =>
      rw [if_neg hempty]
      split at hopen
      case isTrue hcarries =>
        rw [if_pos hcarries, hdry, if_neg Bool.false_ne_true]
        dsimp only
        -- the radio has taken no more than the block had behind its cut
        obtain ⟨start, k, hk, -, hnext, hstart⟩ :=
          sendBlock_eq opts hradio s.down s.up (payload.take kMaxPayload) leadUs
        have hle := sendStart_le h hdry (payload.take kMaxPayload).length leadUs
        rw [← hstart] at hle
        rw [List.length_drop] at hk
        rw [hnext]
        omega
      case isFalse hcarries => cases hopen

/-- The packet of a block that carries something. -/
theorem sent_transmit (down : Downlink α) (up : Uplink ρ α) (hdry : opts.dryTx = false)
    {payload : List α} {leadUs : ℤ} (hcarries : Carries opts (payload.take kMaxPayload) leadUs) :
    (transmit radio opts down up payload leadUs).sent = up.sent ++
      [{ stream := up.streamIdx + cutHead opts (payload.take kMaxPayload).length leadUs
         samples := (payload.take kMaxPayload).drop
          (cutHead opts (payload.take kMaxPayload).length leadUs)
         air := (sendBlock radio opts down up (payload.take kMaxPayload) leadUs).2
         dlBase := down.dlBase, segs := down.segs }] := by
  have hlt := cutHead_lt hcarries
  unfold transmit
  dsimp only
  rw [if_neg (by omega), if_pos hcarries, hdry]
  rfl

/-- Nothing else is sent. -/
theorem sent_transmit_of_not (down : Downlink α) (up : Uplink ρ α) {payload : List α} {leadUs : ℤ}
    (h : opts.dryTx = false → ¬ Carries opts (payload.take kMaxPayload) leadUs) :
    (transmit radio opts down up payload leadUs).sent = up.sent := by
  unfold transmit
  dsimp only
  split
  · rfl
  · split
    case isTrue hcarries =>
      cases hdry : opts.dryTx with
      | false => exact absurd hcarries (h hdry)
      | true => rfl
    case isFalse => rfl

/-- **Step lemma.** A step keeps all the packets aligned exactly if it meets the condition. -/
theorem aligned_step (hradio : radio.Streams next) (h : UplinkInv next downOpts opts s)
    (a : BridgeAction α) :
    (∀ p ∈ (step radio downOpts opts s a).up.sent, Aligned opts p) ↔
      (∀ p ∈ s.up.sent, Aligned opts p) ∧ OneSegment radio next opts s a := by
  cases a with
  | down a => exact ⟨fun hs => ⟨hs, trivial⟩, fun hs => hs.1⟩
  | block payload leadUs =>
    dsimp only [step, OneSegment]
    by_cases hbase : s.down.dlBase < 0
    · rw [if_pos hbase]
      exact ⟨fun hs => ⟨hs, fun hnot => absurd hbase hnot⟩, fun hs => hs.1⟩
    · rw [if_neg hbase]
      by_cases hsends : opts.dryTx = false ∧ Carries opts (payload.take kMaxPayload) leadUs
      · obtain ⟨hdry, hcarries⟩ := hsends
        rw [sent_transmit s.down s.up hdry hcarries, List.forall_mem_append,
          List.forall_mem_singleton, aligned_sent hradio h hdry (not_lt.mp hbase)]
        exact ⟨fun hs => ⟨hs.1, fun _ _ _ => hs.2⟩, fun hs => ⟨hs.1, hs.2 hbase hdry hcarries⟩⟩
      · have hnot : opts.dryTx = false → ¬ Carries opts (payload.take kMaxPayload) leadUs :=
          fun hdry hcarries => hsends ⟨hdry, hcarries⟩
        rw [sent_transmit_of_not s.down s.up hnot]
        exact ⟨fun hs => ⟨hs, fun _ hdry hcarries => absurd hcarries (hnot hdry)⟩, fun hs => hs.1⟩

end Step

/-! ## Runs -/

/-- The state before the first step. -/
theorem UplinkInv.init {ρ α : Type*} [Zero α] {K : Type} (radio : Radio ρ α) (next : ρ → ℤ)
    (downOpts : DownlinkOptions) (opts : UplinkOptions K) :
    UplinkInv next downOpts opts (Bridge.init radio downOpts) where
  map := Downlink.MapInv.init downOpts
  index := le_refl 0
  burst := by
    intro _ hopen
    cases hopen

section Runs

variable {ρ α : Type*} [Zero α] [DecidableEq α] {K : Type} [Field K] [LinearOrder K] [FloorRing K]
  {radio : Radio ρ α} {next : ρ → ℤ} {downOpts : DownlinkOptions} {opts : UplinkOptions K}

/-- A step keeps the state. -/
theorem UplinkInv.step (hradio : radio.Streams next) {s : Bridge ρ α}
    (h : UplinkInv next downOpts opts s) (a : BridgeAction α) :
    UplinkInv next downOpts opts (Bridge.step radio downOpts opts s a) := by
  cases a with
  | down a => exact ⟨h.map.step a, h.index, h.burst⟩
  | block payload leadUs =>
    dsimp only [Bridge.step]
    split
    · exact h
    · exact h.transmit hradio payload leadUs

/-- **Uplink alignment.** In every run of the bridge with a radio that keeps its promise, every
sample that goes on air is placed at its stream index and the offset of the last segment at or
before it exactly if every step meets the condition: the samples that are taken of a block lie
inside one segment, none has been lost before them, and the burst that they continue has no send
that ended short. -/
theorem uplink_aligned_iff (radio : Radio ρ α) (next : ρ → ℤ) (hradio : radio.Streams next)
    (downOpts : DownlinkOptions) (opts : UplinkOptions K) (actions : List (BridgeAction α)) :
    (∀ p ∈ (run radio downOpts opts actions).up.sent, Aligned opts p) ↔
      Run.Meets (step radio downOpts opts) (OneSegment radio next opts) (init radio downOpts)
        actions := by
  have hiff := Run.Meets.iff (P := fun s : Bridge ρ α => ∀ p ∈ s.up.sent, Aligned opts p)
    (fun s a (h : UplinkInv next downOpts opts s) => h.step hradio a)
    (fun s a (h : UplinkInv next downOpts opts s) => aligned_step hradio h a)
    (UplinkInv.init radio next downOpts opts) actions
  refine hiff.trans ⟨fun h => h.2, fun h => ⟨?_, h⟩⟩
  intro p hp
  cases hp

end Runs

/-! ## A run that continues a burst, and one that jumps -/

/-- A radio that takes every sample of every send. -/
def wholeRadio (α : Type*) : Radio ℤ α where
  idle := 0
  send r start samples :=
    (start.getD r + samples.length, onAir (start.getD r) samples)
  endBurst r := r

/-- It keeps its promise. -/
theorem wholeRadio_streams {α : Type*} : (wholeRadio α).Streams id where
  timed r start samples := ⟨samples.length, le_refl _, by rw [List.take_length]; rfl, rfl⟩
  continued r samples := ⟨samples.length, le_refl _, by rw [List.take_length]; rfl, rfl⟩

/-- Batches of one from a ring of four. -/
def straddleDownlink : DownlinkOptions :=
  { batch := 1, maxBacklogSamples := 0, alignSamples := 0, ringSize := 4 }

def straddleUplink : UplinkOptions ℚ :=
  { ulOffset := 0, txAdv := 0, minLeadUs := 200, rate := 1000000, dryTx := false }

/-- The downlink is anchored at 1 and serves one sample. -/
def anchoredRun : List (BridgeAction ℕ) :=
  [.packet ⟨0, [5]⟩, .rxStep, .rxStep, .request, .dlStep, .packet ⟨1, [6]⟩, .rxStep, .rxStep,
    .dlStep, .dlStep, .dlStep].map .down

/-- A block of two samples, one that continues its burst, and a late one whose head is cut off. -/
theorem uplink_aligned_continued :
    (run (wholeRadio ℕ) straddleDownlink straddleUplink
      (anchoredRun ++ [.block [9, 9] 1000, .block [8] 1000, .block [7, 7, 7] 199])).up.sent.map
        Sent.air = [[(1, 9), (2, 9)], [(3, 8)], [(5, 7), (6, 7)]] ∧
    ∀ p ∈ (run (wholeRadio ℕ) straddleDownlink straddleUplink
      (anchoredRun ++ [.block [9, 9] 1000, .block [8] 1000, .block [7, 7, 7] 199])).up.sent,
        Aligned straddleUplink p := by
  refine ⟨by decide +kernel, ?_⟩
  exact (uplink_aligned_iff (wholeRadio ℕ) id wholeRadio_streams _ _ _).mpr (by decide +kernel)

/-- The downlink falls behind and jumps by two samples at stream index 1.  Then a block of two
samples arrives with stream indices 0 and 1. -/
def straddleRun : List (BridgeAction ℕ) :=
  anchoredRun ++ ([.packet ⟨2, [7, 7, 7]⟩, .rxStep, .rxStep, .rxStep, .rxStep, .request, .dlStep,
    .dlStep, .dlStep].map .down ++ [.block [9, 9] 1000])

/-- The second sample of the block goes out two samples before its time. -/
theorem straddling_block_misplaced :
    (run (wholeRadio ℕ) straddleDownlink straddleUplink straddleRun).down.segs
      = [(0, 1), (1, 3)] ∧
    ¬ ∀ p ∈ (run (wholeRadio ℕ) straddleDownlink straddleUplink straddleRun).up.sent,
      Aligned straddleUplink p := by
  constructor <;> decide +kernel

end Bridge

end UsrpBridge
