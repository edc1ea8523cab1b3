/-
# The downlink of the radio bridge

`usrp_zmq_bridge.cpp` keeps the last received samples in a ring indexed by absolute sample
number.  The RX thread places every packet by its timestamp, and the DL thread answers the
requests of the broker with consecutive batches, skipping ahead when it has fallen behind.
`segs` maps the stream that it has served to absolute sample numbers.

The threads interleave store by store and load by load.  Timestamps are given as sample
indices, and the two option values that the source converts to samples as integers.  A stop
request, which ends every wait at once, is left out.
-/
import GpuChannel.Library.CyclicBuffer
import GpuChannel.Library.Run

namespace UsrpBridge

/-! ## The threads -/

/-- The options of the downlink: `batch`, `max_backlog_ms` and `jump_align_ms` in samples, and
the size of the ring. -/
structure DownlinkOptions where
  batch : ℕ
  maxBacklogSamples : ℤ
  alignSamples : ℤ
  ringSize : ℕ

/-- A received packet: the sample index of its timestamp and its samples. -/
structure Packet (α : Type*) where
  idx : ℤ
  samples : List α
  deriving DecidableEq

/-- The end of a packet. -/
def Packet.stop {α : Type*} (p : Packet α) : ℤ := p.idx + p.samples.length

inductive RxThread (α : Type*)
  | idle
  | writing (p : Packet α) (todo : List (α × ℕ))
  deriving DecidableEq

inductive DlThread (α : Type*)
  | idle
  | anchoring
  | waiting
  | reading (out : List α)
  deriving DecidableEq

/-- The shared state of the two threads.  `packets` is what has been received, `replies` what
has been sent, and `touched` one past the newest sample number stored. -/
structure Downlink (α : Type*) where
  ring : List α
  rxHead : ℕ
  rx : RxThread α
  dl : DlThread α
  cursor : ℕ
  streamPos : ℕ
  dlBase : ℤ
  segs : List (ℕ × ℤ)
  touched : ℕ
  packets : List (Packet α)
  replies : List (List α)
  deriving DecidableEq

inductive DownlinkAction (α : Type*)
  | packet (p : Packet α)
  | rxStep
  | request
  | dlStep

namespace Downlink

variable {α : Type*} [Zero α]

def init (opts : DownlinkOptions) : Downlink α where
  ring := List.replicate opts.ringSize 0
  rxHead := 0
  rx := .idle
  dl := .idle
  cursor := 0
  streamPos := 0
  dlBase := -1
  segs := []
  touched := 0
  packets := []
  replies := []

/-- The zeros in front of a packet: from the head up to it, at most a ring of them. -/
def gapWrites (ringSize head : ℕ) (p : Packet α) : List (α × ℕ) :=
  if (head : ℤ) < p.idx then
    (List.replicate (min (p.idx - head).toNat ringSize) 0).zipIdx head
  else []

/-- The samples of a packet from the head on; none of a duplicate. -/
def dataWrites (head : ℕ) (p : Packet α) : List (α × ℕ) :=
  if p.stop ≤ head then []
  else
    let start := max p.idx head
    (p.samples.drop (start - p.idx).toNat).zipIdx start.toNat

/-- The stores of the RX thread for a packet. -/
def packetWrites (ringSize head : ℕ) (p : Packet α) : List (α × ℕ) :=
  gapWrites ringSize head p ++ dataWrites head p

/-- The head behind a packet. -/
def headAfter (head : ℕ) (p : Packet α) : ℕ := if p.stop ≤ head then head else p.stop.toNat

/-- `recv` returns: empty packets are ignored. -/
def receive (s : Downlink α) (p : Packet α) : Downlink α :=
  match s.rx with
  | .idle =>
      if p.samples = [] then s
      else { s with rx := .writing p (packetWrites s.ring.length s.rxHead p) }
  | _ => s

/-- One store of the RX thread. -/
def rxStep (s : Downlink α) : Downlink α :=
  match s.rx with
  | .idle => s
  | .writing p (w :: todo) =>
      { s with
        ring := CyclicBuffer.store s.ring w, touched := max s.touched (w.2 + 1)
        rx := .writing p todo }
  | .writing p [] =>
      { s with
        rxHead := headAfter s.rxHead p, touched := headAfter s.rxHead p
        packets := s.packets ++ [p], rx := .idle }

/-- A DL request arrives. -/
def request (s : Downlink α) : Downlink α :=
  match s.dl with
  | .idle => { s with dl := if s.dlBase < 0 then .anchoring else .waiting }
  | _ => s

/-- What the DL thread would skip: down to the newest batch, by whole alignments. -/
def skipOf (opts : DownlinkOptions) (backlog : ℤ) : ℤ :=
  let skip := backlog - opts.batch
  if 0 < opts.alignSamples then skip - skip.tmod opts.alignSamples else skip

/-- The condition of a jump. -/
def Jumps (opts : DownlinkOptions) (backlog : ℤ) : Prop :=
  min (max opts.maxBacklogSamples (2 * opts.batch)) (opts.ringSize - 2 * opts.batch) < backlog ∧
    0 < skipOf opts backlog

instance (opts : DownlinkOptions) (backlog : ℤ) : Decidable (Jumps opts backlog) :=
  inferInstanceAs (Decidable (_ ∧ _))

/-- The DL thread behind its wait: jump or not, and start the read. -/
def serve (opts : DownlinkOptions) (s : Downlink α) : Downlink α :=
  let backlog : ℤ := (s.rxHead : ℤ) - s.cursor
  if Jumps opts backlog then
    let cursor := s.cursor + (skipOf opts backlog).toNat
    { s with
      cursor := cursor, segs := s.segs ++ [(s.streamPos, (cursor : ℤ) - s.streamPos)]
      dl := .reading [] }
  else { s with dl := .reading [] }

/-- One step of the DL thread; a wait whose condition does not hold goes on. -/
def dlStep (opts : DownlinkOptions) (s : Downlink α) : Downlink α :=
  match s.dl with
  | .idle => s
  | .anchoring =>
      if s.rxHead < opts.batch then s
      else
        { s with
          cursor := s.rxHead, segs := s.segs ++ [(0, (s.rxHead : ℤ))], dlBase := s.rxHead
          dl := .waiting }
  | .waiting => if s.rxHead < s.cursor + opts.batch then s else serve opts s
  | .reading out =>
      if out.length < opts.batch then
        let x := (s.ring[(s.cursor + out.length) % s.ring.length]?).getD 0
        { s with dl := .reading (out ++ [x]) }
      else
        { s with
          cursor := s.cursor + opts.batch, streamPos := s.streamPos + opts.batch
          replies := s.replies ++ [out], dl := .idle }

def step (opts : DownlinkOptions) (s : Downlink α) : DownlinkAction α → Downlink α
  | .packet p => s.receive p
  | .rxStep => s.rxStep
  | .request => s.request
  | .dlStep => s.dlStep opts

/-- The state after some accesses. -/
def run (opts : DownlinkOptions) (actions : List (DownlinkAction α)) : Downlink α :=
  actions.foldl (step opts) (init opts)

end Downlink

/-! ## What was on the air -/

section Air

variable {α : Type*} [Zero α]

omit [Zero α] in
/-- A packet ends no earlier than it starts. -/
theorem Packet.idx_le_stop (p : Packet α) : p.idx ≤ p.stop := by
  unfold Packet.stop
  omega

/-- The first packet received that ends behind `q`. -/
def firstPast (packets : List (Packet α)) (q : ℕ) : Option (Packet α) :=
  packets.find? fun p => (q : ℤ) < p.stop

/-- **The sample of absolute index `q`.** The first received packet that ends behind `q` either
carries it or, when it starts behind `q`, puts `q` in a gap. -/
def received (packets : List (Packet α)) (q : ℕ) : α :=
  match firstPast packets q with
  | none => 0
  | some p => if p.idx ≤ q then (p.samples[((q : ℤ) - p.idx).toNat]?).getD 0 else 0

/-- The offset from stream index to absolute index at `u`: that of the last entry whose stream
index is at most `u`. -/
def deltaAt (base : ℤ) (segs : List (ℕ × ℤ)) (u : ℕ) : ℤ :=
  match segs.reverse.find? fun e => e.1 ≤ u with
  | none => base
  | some e => e.2

omit [Zero α] in
/-- The first packet past an index is an old one, or the new one. -/
theorem firstPast_append (packets : List (Packet α)) (p : Packet α) (q : ℕ) :
    firstPast (packets ++ [p]) q
      = (firstPast packets q).or (if (q : ℤ) < p.stop then some p else none) := by
  unfold firstPast
  rw [List.find?_append]
  by_cases h : (q : ℤ) < p.stop <;> simp [h]

/-- A packet changes nothing that an earlier one has reached. -/
theorem received_append_of_some {packets : List (Packet α)} {q : ℕ}
    (h : (firstPast packets q).isSome) (p : Packet α) :
    received (packets ++ [p]) q = received packets q := by
  obtain ⟨p', hp'⟩ := Option.isSome_iff_exists.mp h
  unfold received
  rw [firstPast_append, hp']
  rfl

/-- Where no old packet reaches, the air is the new packet's, or a gap. -/
theorem received_append_of_none {packets : List (Packet α)} {q : ℕ}
    (h : firstPast packets q = none) {p : Packet α} (hq : (q : ℤ) < p.stop) :
    received (packets ++ [p]) q
      = if p.idx ≤ q then (p.samples[((q : ℤ) - p.idx).toNat]?).getD 0 else 0 := by
  unfold received
  rw [firstPast_append, h, if_pos hq]
  rfl

/-- A new segment takes over from its own index on. -/
theorem deltaAt_append (base : ℤ) (segs : List (ℕ × ℤ)) (e : ℕ × ℤ) (u : ℕ) :
    deltaAt base (segs ++ [e]) u = if e.1 ≤ u then e.2 else deltaAt base segs u := by
  unfold deltaAt
  rw [List.reverse_append]
  by_cases h : e.1 ≤ u <;> simp [h]

end Air

/-! ## The RX thread -/

namespace Downlink

open CyclicBuffer

variable {α : Type*} [Zero α]

/-- The last revolution of received samples is in the ring. -/
def HoldsAir (size head : ℕ) (ring : List α) (packets : List (Packet α)) : Prop :=
  ring.length = size ∧
    ∀ q < head, head ≤ q + size → ring[q % size]? = some (received packets q)

omit [Zero α] in
/-- The head is where the packets end. -/
def Reached (head : ℕ) (packets : List (Packet α)) : Prop :=
  ∀ q, (firstPast packets q).isSome ↔ q < head

/-- The zeros of a gap lie between the head and the packet. -/
theorem mem_gapWrites {size head : ℕ} {p : Packet α} {w : α × ℕ} (h : w ∈ gapWrites size head p) :
    head ≤ w.2 ∧ (w.2 : ℤ) < p.idx ∧ w.1 = 0 := by
  unfold gapWrites at h
  split at h
  · obtain ⟨hlo, hhi, -⟩ := List.mem_zipIdx h
    have hzero := List.eq_of_mem_replicate (List.fst_mem_of_mem_zipIdx h)
    rw [List.length_replicate] at hhi
    exact ⟨hlo, by omega, hzero⟩
  · cases h

omit [Zero α] in
/-- The samples of a packet lie past the head, inside the packet. -/
theorem mem_dataWrites {head : ℕ} {p : Packet α} {w : α × ℕ} (h : w ∈ dataWrites head p) :
    head ≤ w.2 ∧ p.idx ≤ w.2 ∧ (w.2 : ℤ) < p.stop := by
  unfold dataWrites at h
  split at h
  · cases h
  · obtain ⟨hlo, hhi, -⟩ := List.mem_zipIdx h
    rw [List.length_drop] at hhi
    unfold Packet.stop at *
    omega

/-- The stores for a packet lie between the old head and the new one. -/
theorem mem_packetWrites {size head : ℕ} {p : Packet α} {w : α × ℕ}
    (h : w ∈ packetWrites size head p) : head ≤ w.2 ∧ w.2 < headAfter head p := by
  have hstop := p.idx_le_stop
  unfold headAfter
  rcases List.mem_append.mp h with hw | hw
  · obtain ⟨hlo, hhi, -⟩ := mem_gapWrites hw
    rw [if_neg (by omega)]
    omega
  · obtain ⟨hlo, -, hhi⟩ := mem_dataWrites hw
    rw [if_neg (by omega)]
    omega

/-- The zeros reach the cell of every sample of the gap, however long it is. -/
theorem gapWrites_hit {size head q : ℕ} {p : Packet α} (hsize : 0 < size) (hq : head ≤ q)
    (hgap : (q : ℤ) < p.idx) : ∃ w ∈ gapWrites size head p, w.2 % size = q % size := by
  have hmod := Nat.mod_lt (q - head) hsize
  have hle := Nat.mod_le (q - head) size
  refine ⟨(0, head + (q - head) % size), ?_, ?_⟩
  · unfold gapWrites
    rw [if_pos (by omega), List.mk_mem_zipIdx_iff_le_and_getElem?_sub]
    refine ⟨by omega, ?_⟩
    rw [List.getElem?_replicate, if_pos (by omega)]
  · show (head + (q - head) % size) % size = q % size
    rw [Nat.add_mod_mod, show head + (q - head) = q by omega]

section Stores

variable {size head q : ℕ} {p : Packet α} {ring : List α}

/-- A sample before the old head and within a ring of the new one keeps its cell. -/
theorem getElem?_packetWrites_of_lt (hring : ring.length = size) (hq : q < head)
    (hfit : headAfter head p ≤ q + size) :
    ((packetWrites size head p).foldl store ring)[q % size]? = ring[q % size]? := by
  apply getElem?_foldl_store_of_ne
  intro w hw hcell
  obtain ⟨hlo, hhi⟩ := mem_packetWrites hw
  rw [hring] at hcell
  have heq := eq_of_mod_eq hcell (by omega) (by omega)
  omega

/-- A sample of the gap in front of the packet is zero. -/
theorem getElem?_packetWrites_gap (hring : ring.length = size) (hq : head ≤ q)
    (hgap : (q : ℤ) < p.idx) (hfit : p.stop ≤ q + size) :
    ((packetWrites size head p).foldl store ring)[q % size]? = some 0 := by
  have hstop := p.idx_le_stop
  have hzeros : ((gapWrites size head p).foldl store ring).length = size := by
    rw [length_foldl_store, hring]
  unfold packetWrites
  rw [List.foldl_append, getElem?_foldl_store_of_ne]
  · obtain rfl := hring
    apply getElem?_foldl_store_const (by omega)
    · intro w hw
      exact (mem_gapWrites hw).2.2
    · exact gapWrites_hit (by omega) hq hgap
  · -- the samples of the packet are less than a revolution ahead of the gap
    intro w hw hcell
    obtain ⟨-, hlo, hhi⟩ := mem_dataWrites hw
    rw [hzeros] at hcell
    have heq := eq_of_mod_eq hcell (by omega) (by omega)
    omega

/-- A sample of the packet at or behind the old head is stored. -/
theorem getElem?_packetWrites_data (hring : ring.length = size) (hlen : p.samples.length ≤ size)
    (hq : head ≤ q) (hlo : p.idx ≤ q) (hhi : (q : ℤ) < p.stop) :
    ((packetWrites size head p).foldl store ring)[q % size]?
      = p.samples[((q : ℤ) - p.idx).toNat]? := by
  have hzeros : ((gapWrites size head p).foldl store ring).length = size := by
    rw [length_foldl_store, hring]
  have hdata : dataWrites head p
      = (p.samples.drop (max p.idx head - p.idx).toNat).zipIdx (max p.idx head).toNat :=
    if_neg (by omega)
  unfold Packet.stop at hhi
  have hcell : ((dataWrites head p).foldl store ((gapWrites size head p).foldl store ring))[
      q % ((gapWrites size head p).foldl store ring).length]?
      = (p.samples.drop (max p.idx head - p.idx).toNat)[q - (max p.idx head).toNat]? := by
    rw [hdata]
    apply getElem?_foldl_store_zipIdx
    · rw [List.length_drop, hzeros]
      omega
    · omega
    · rw [List.length_drop]
      omega
  rw [hzeros, List.getElem?_drop] at hcell
  rw [packetWrites, List.foldl_append, hcell]
  congr 1
  omega

end Stores

/-- **A packet.** When its stores are done the ring holds the last revolution of what has been
received with it. -/
theorem HoldsAir.packet {size head : ℕ} {ring : List α} {packets : List (Packet α)}
    (h : HoldsAir size head ring packets) (hreached : Reached head packets) {p : Packet α}
    (hlen : p.samples.length ≤ size) :
    HoldsAir size (headAfter head p) ((packetWrites size head p).foldl store ring)
      (packets ++ [p]) := by
  obtain ⟨hring, hcells⟩ := h
  refine ⟨by rw [length_foldl_store, hring], ?_⟩
  intro q hq hfit
  by_cases hold : q < head
  · have hle : head ≤ headAfter head p := by
      unfold headAfter
      split <;> omega
    rw [getElem?_packetWrites_of_lt hring hold hfit, hcells q hold (by omega),
      received_append_of_some ((hreached q).mpr hold)]
  · have hnew : ¬ p.stop ≤ head := by
      intro hdup
      rw [headAfter, if_pos hdup] at hq
      omega
    rw [headAfter, if_neg hnew] at hq hfit
    have hnone : firstPast packets q = none := by
      rw [← Option.not_isSome_iff_eq_none, hreached]
      exact hold
    rw [received_append_of_none hnone (by omega)]
    by_cases hlo : p.idx ≤ q
    · rw [if_pos hlo, getElem?_packetWrites_data hring hlen (by omega) hlo (by omega)]
      have hin : ((q : ℤ) - p.idx).toNat < p.samples.length := by
        unfold Packet.stop at hq
        omega
      rw [List.getElem?_eq_getElem hin]
      rfl
    · rw [if_neg hlo, getElem?_packetWrites_gap hring (by omega) (by omega) (by omega)]

omit [Zero α] in
/-- A packet moves the head to where it ends. -/
theorem Reached.packet {head : ℕ} {packets : List (Packet α)} (h : Reached head packets)
    (p : Packet α) : Reached (headAfter head p) (packets ++ [p]) := by
  intro q
  rw [firstPast_append, Option.isSome_or, Bool.or_eq_true, h q]
  unfold headAfter
  by_cases hp : (q : ℤ) < p.stop
  · rw [if_pos hp]
    simp only [Option.isSome_some, or_true, true_iff]
    split <;> omega
  · rw [if_neg hp]
    simp only [Option.isSome_none, Bool.false_eq_true, or_false]
    split <;> omega

/-- Where the RX thread stands: between packets the ring holds the last revolution; inside one
it is the ring of before with the first of the packet's stores done. -/
def RxAt (size : ℕ) (s : Downlink α) : RxThread α → Prop
  | .idle => s.touched = s.rxHead ∧ HoldsAir size s.rxHead s.ring s.packets
  | .writing p todo => p.samples.length ≤ size ∧ ∃ ring done,
      done ++ todo = packetWrites size s.rxHead p ∧ s.ring = done.foldl store ring ∧
      HoldsAir size s.rxHead ring s.packets ∧ s.rxHead ≤ s.touched ∧ ∀ w ∈ done, w.2 < s.touched

structure RxInv (size : ℕ) (s : Downlink α) : Prop where
  reached : Reached s.rxHead s.packets
  at_rx : RxAt size s s.rx

/-- The length of the ring does not change. -/
theorem RxInv.length {size : ℕ} {s : Downlink α} (h : RxInv size s) : s.ring.length = size := by
  have hat := h.at_rx
  cases hrx : s.rx with
  | idle =>
    rw [hrx] at hat
    exact hat.2.1
  | writing p todo =>
    rw [hrx] at hat
    obtain ⟨-, ring, done, -, hring, hair, -⟩ := hat
    rw [hring, length_foldl_store]
    exact hair.1

/-- **A load.** A sample that has been received and that no store has reached for a revolution
is in its cell. -/
theorem RxInv.load {size : ℕ} {s : Downlink α} (h : RxInv size s) {q : ℕ} (hq : q < s.rxHead)
    (hinside : s.touched ≤ q + size) : s.ring[q % size]? = some (received s.packets q) := by
  have hat := h.at_rx
  cases hrx : s.rx with
  | idle =>
    rw [hrx] at hat
    obtain ⟨htouched, -, hcells⟩ := hat
    exact hcells q hq (by omega)
  | writing p todo =>
    rw [hrx] at hat
    obtain ⟨-, ring, done, hsplit, hring, ⟨hsize, hcells⟩, hhead, hdone⟩ := hat
    rw [hring, getElem?_foldl_store_of_ne, hcells q hq (by omega)]
    intro w hw hcell
    have hmem : w ∈ packetWrites size s.rxHead p := by
      rw [← hsplit]
      exact List.mem_append_left todo hw
    have hlo := (mem_packetWrites hmem).1
    have hhi := hdone w hw
    rw [hsize] at hcell
    have heq := eq_of_mod_eq hcell (by omega) (by omega)
    omega

/-- The receive invariant holds at the start. -/
theorem RxInv.init (opts : DownlinkOptions) : RxInv opts.ringSize (init opts : Downlink α) where
  reached := by
    intro q
    show false = true ↔ q < 0
    simp
  at_rx := by
    refine ⟨rfl, List.length_replicate, ?_⟩
    intro q hq
    exact absurd hq (Nat.not_lt_zero q)

/-- A packet keeps the receive invariant. -/
theorem RxInv.receive {size : ℕ} {s : Downlink α} (h : RxInv size s) {p : Packet α}
    (hlen : p.samples.length ≤ size) : RxInv size (s.receive p) := by
  have hsize := h.length
  unfold Downlink.receive
  split
  case h_1 hrx =>
    have hat := h.at_rx
    rw [hrx] at hat
    split
    · exact h
    · refine ⟨h.reached, hlen, s.ring, [], ?_, rfl, hat.2, hat.1.ge, ?_⟩
      · rw [hsize]
        rfl
      · intro w hw
        cases hw
  case h_2 => exact h

/-- A receive step keeps the invariant. -/
theorem RxInv.rxStep {size : ℕ} {s : Downlink α} (h : RxInv size s) : RxInv size s.rxStep := by
  have hat := h.at_rx
  unfold Downlink.rxStep
  split
  case h_1 => exact h
  case h_2 p w todo hrx =>
    rw [hrx] at hat
    obtain ⟨hlen, ring, done, hsplit, hring, hair, hhead, hdone⟩ := hat
    refine ⟨h.reached, hlen, ring, done ++ [w], ?_, ?_, hair, ?_, ?_⟩
    · rw [List.append_assoc]
      exact hsplit
    · rw [List.foldl_append, ← hring]
      rfl
    · exact le_max_of_le_left hhead
    · intro w' hw'
      rcases List.mem_append.mp hw' with hmem | hmem
      · exact lt_of_lt_of_le (hdone w' hmem) (le_max_left _ _)
      · obtain rfl := List.mem_singleton.mp hmem
        exact lt_of_lt_of_le (Nat.lt_succ_self _) (le_max_right _ _)
  case h_3 p hrx =>
    rw [hrx] at hat
    obtain ⟨hlen, ring, done, hsplit, hring, hair, -⟩ := hat
    refine ⟨h.reached.packet p, rfl, ?_⟩
    rw [List.append_nil] at hsplit
    rw [hring, hsplit]
    exact hair.packet h.reached hlen

/-- The RX thread's part of the state does not depend on the DL thread. -/
theorem RxInv.of_eq {size : ℕ} {s t : Downlink α} (h : RxInv size s) (hring : t.ring = s.ring)
    (hhead : t.rxHead = s.rxHead) (hrx : t.rx = s.rx) (htouched : t.touched = s.touched)
    (hpackets : t.packets = s.packets) : RxInv size t := by
  obtain ⟨hreached, hat⟩ := h
  refine ⟨by rw [hhead, hpackets]; exact hreached, ?_⟩
  rw [hrx]
  cases hs : s.rx with
  | idle =>
    rw [hs] at hat
    unfold RxAt at hat ⊢
    rw [htouched, hhead, hring, hpackets]
    exact hat
  | writing p todo =>
    rw [hs] at hat
    unfold RxAt at hat ⊢
    rw [htouched, hhead, hring, hpackets]
    exact hat

/-! ## The DL thread -/

/-- The skip is at most what keeps one batch, and by whole alignments when one is set. -/
theorem skipOf_le {opts : DownlinkOptions} {backlog : ℤ} (h : (opts.batch : ℤ) ≤ backlog) :
    skipOf opts backlog ≤ backlog - opts.batch ∧
      (0 < opts.alignSamples → opts.alignSamples ∣ skipOf opts backlog) := by
  unfold skipOf
  by_cases halign : 0 < opts.alignSamples
  · have hmod := Int.tmod_nonneg opts.alignSamples (show 0 ≤ backlog - opts.batch by omega)
    rw [if_pos halign]
    exact ⟨by omega, fun _ => Int.dvd_self_sub_tmod⟩
  · rw [if_neg halign]
    exact ⟨le_refl _, fun h => absurd h halign⟩

/-- The entry `b` of `segs` is behind `a`: its offset is larger, by whole alignments when one
is set. -/
def Skips (opts : DownlinkOptions) (a b : ℕ × ℤ) : Prop :=
  a.1 ≤ b.1 ∧ a.2 < b.2 ∧ (0 < opts.alignSamples → opts.alignSamples ∣ b.2 - a.2)

/-- **The mapping.** `segs` starts with the base, its entries only skip forward, and the offset
of the cursor is that of its last entry. -/
structure MapInv (opts : DownlinkOptions) (s : Downlink α) : Prop where
  fresh : s.dlBase < 0 → s.segs = [] ∧ s.streamPos = 0 ∧ s.replies = []
  started : s.dl = .waiting ∨ (∃ out, s.dl = .reading out) → 0 ≤ s.dlBase
  anchoring : s.dl = .anchoring → s.dlBase < 0
  first : 0 ≤ s.dlBase → s.segs.head? = some (0, s.dlBase)
  order : s.segs.Pairwise (Skips opts)
  bound : ∀ e ∈ s.segs, e.1 ≤ s.streamPos ∧ e.2 ≤ (s.cursor : ℤ) - s.streamPos ∧
    (0 < opts.alignSamples → opts.alignSamples ∣ (s.cursor : ℤ) - s.streamPos - e.2)
  current : 0 ≤ s.dlBase → ∀ u, s.streamPos ≤ u →
    deltaAt s.dlBase s.segs u = (s.cursor : ℤ) - s.streamPos

/-- The mapping invariant holds at the start. -/
theorem MapInv.init (opts : DownlinkOptions) : MapInv opts (init opts : Downlink α) where
  fresh := fun _ => ⟨rfl, rfl, rfl⟩
  started := by
    rintro (h | ⟨out, h⟩) <;> cases h
  anchoring := by
    intro h
    cases h
  first := by
    intro h
    exact absurd h (by show ¬ (0 : ℤ) ≤ -1; omega)
  order := List.Pairwise.nil
  bound := by
    intro e he
    cases he
  current := by
    intro h
    exact absurd h (by show ¬ (0 : ℤ) ≤ -1; omega)

omit [Zero α] in
/-- What the mapping says does not depend on the RX thread, nor on where the DL thread stands
once it has started. -/
theorem MapInv.of_eq {opts : DownlinkOptions} {s t : Downlink α} (h : MapInv opts s)
    (hstarted : t.dl = .waiting ∨ (∃ out, t.dl = .reading out) → 0 ≤ t.dlBase)
    (hanchoring : t.dl = .anchoring → t.dlBase < 0) (hcursor : t.cursor = s.cursor)
    (hpos : t.streamPos = s.streamPos) (hbase : t.dlBase = s.dlBase) (hsegs : t.segs = s.segs)
    (hreplies : t.replies = s.replies) : MapInv opts t := by
  refine ⟨?_, hstarted, hanchoring, ?_, ?_, ?_, ?_⟩
  · rw [hbase, hsegs, hpos, hreplies]
    exact h.fresh
  · rw [hbase, hsegs]
    exact h.first
  · rw [hsegs]
    exact h.order
  · rw [hsegs, hcursor, hpos]
    exact h.bound
  · rw [hbase, hsegs, hcursor, hpos]
    exact h.current

omit [Zero α] in
/-- The DL thread anchors the stream at the head. -/
theorem MapInv.anchor {opts : DownlinkOptions} {s : Downlink α} (h : MapInv opts s)
    (hdl : s.dl = .anchoring) :
    MapInv opts { s with
      cursor := s.rxHead, segs := s.segs ++ [(0, (s.rxHead : ℤ))], dlBase := s.rxHead
      dl := .waiting } := by
  obtain ⟨hsegs, hpos, hreplies⟩ := h.fresh (h.anchoring hdl)
  rw [hsegs, List.nil_append]
  refine ⟨?_, ?_, ?_, ?_, ?_, ?_, ?_⟩
  · intro hneg
    exact absurd hneg (by show ¬ (s.rxHead : ℤ) < 0; omega)
  · intro _
    exact Int.natCast_nonneg s.rxHead
  · intro hcase
    cases hcase
  · intro _
    rfl
  · exact List.pairwise_singleton _ _
  · intro e he
    obtain rfl := List.mem_singleton.mp he
    show 0 ≤ s.streamPos ∧ (s.rxHead : ℤ) ≤ s.rxHead - s.streamPos ∧
      (_ → opts.alignSamples ∣ (s.rxHead : ℤ) - s.streamPos - s.rxHead)
    rw [hpos]
    refine ⟨le_refl 0, by omega, fun _ => ?_⟩
    rw [show (s.rxHead : ℤ) - (0 : ℕ) - s.rxHead = 0 by omega]
    exact dvd_zero _
  · intro _ u _
    show deltaAt _ [(0, (s.rxHead : ℤ))] u = s.rxHead - s.streamPos
    rw [← List.nil_append [(0, (s.rxHead : ℤ))], deltaAt_append, if_pos (Nat.zero_le u), hpos]
    omega

omit [Zero α] in
/-- The reply is sent and the stream moves on by a batch. -/
theorem MapInv.finish {opts : DownlinkOptions} {s : Downlink α} (h : MapInv opts s)
    {out : List α} (hdl : s.dl = .reading out) :
    MapInv opts { s with
      cursor := s.cursor + opts.batch, streamPos := s.streamPos + opts.batch
      replies := s.replies ++ [out], dl := .idle } := by
  have hbase : 0 ≤ s.dlBase := h.started (.inr ⟨out, hdl⟩)
  have hoffset : ((s.cursor + opts.batch : ℕ) : ℤ) - (s.streamPos + opts.batch : ℕ)
      = (s.cursor : ℤ) - s.streamPos := by omega
  refine ⟨?_, ?_, ?_, h.first, h.order, ?_, ?_⟩
  · intro hneg
    exact absurd hbase (by show ¬ 0 ≤ s.dlBase; exact not_le.mpr hneg)
  · intro hcase
    rcases hcase with hcase | ⟨out', hcase⟩ <;> cases hcase
  · intro hcase
    cases hcase
  · intro e he
    show e.1 ≤ s.streamPos + opts.batch ∧ e.2 ≤ _ ∧ (_ → _ ∣ _)
    rw [hoffset]
    exact ⟨le_trans (h.bound e he).1 (Nat.le_add_right _ _), (h.bound e he).2⟩
  · intro _ u hu
    show deltaAt s.dlBase s.segs u = _
    rw [hoffset]
    exact h.current hbase u (le_trans (Nat.le_add_right _ _) hu)

omit [Zero α] in
/-- The jump or its absence: the mapping stands, the cursor does not move back, and a whole
batch is still in front of it. -/
theorem MapInv.serve {opts : DownlinkOptions} {s : Downlink α} (h : MapInv opts s)
    (hdl : s.dl = .waiting) (hready : s.cursor + opts.batch ≤ s.rxHead) :
    MapInv opts (s.serve opts) ∧ s.cursor ≤ (s.serve opts).cursor ∧
      (s.serve opts).cursor + opts.batch ≤ s.rxHead ∧
      (0 < opts.alignSamples → opts.alignSamples ∣ ((s.serve opts).cursor : ℤ) - s.cursor) := by
  have hbase : 0 ≤ s.dlBase := h.started (.inl hdl)
  have hbatch : (opts.batch : ℤ) ≤ (s.rxHead : ℤ) - s.cursor := by omega
  obtain ⟨hle, hdvd⟩ := skipOf_le hbatch
  unfold Downlink.serve
  by_cases hjump : Jumps opts ((s.rxHead : ℤ) - s.cursor)
  -- a jump: the new segment starts at this stream position, a whole number of alignments on
  · have hskip := hjump.2
    rw [if_pos hjump]
    generalize hk : skipOf opts ((s.rxHead : ℤ) - s.cursor) = skip at hle hdvd hskip
    have hcursor : ((s.cursor + skip.toNat : ℕ) : ℤ) = s.cursor + skip := by omega
    refine ⟨⟨?_, ?_, ?_, ?_, ?_, ?_, ?_⟩, Nat.le_add_right _ _, ?_, ?_⟩
    · intro hneg
      exact absurd hbase (not_le.mpr hneg)
    · intro _
      exact hbase
    · intro hcase
      cases hcase
    · intro _
      show (s.segs ++ _).head? = _
      rw [List.head?_append, h.first hbase]
      rfl
    · show (s.segs ++ _).Pairwise _
      rw [List.pairwise_append]
      refine ⟨h.order, List.pairwise_singleton _ _, ?_⟩
      intro e he e' he'
      obtain rfl := List.mem_singleton.mp he'
      obtain ⟨hpos, hoff, halign⟩ := h.bound e he
      refine ⟨hpos, ?_, ?_⟩
      · show e.2 < ((s.cursor + skip.toNat : ℕ) : ℤ) - s.streamPos
        omega
      · intro hset
        show opts.alignSamples ∣ ((s.cursor + skip.toNat : ℕ) : ℤ) - s.streamPos - e.2
        rw [hcursor, show (s.cursor : ℤ) + skip - s.streamPos - e.2
          = s.cursor - s.streamPos - e.2 + skip by ring]
        exact dvd_add (halign hset) (hdvd hset)
    · intro e he
      show e.1 ≤ s.streamPos ∧ e.2 ≤ ((s.cursor + skip.toNat : ℕ) : ℤ) - s.streamPos ∧
        (_ → opts.alignSamples ∣ ((s.cursor + skip.toNat : ℕ) : ℤ) - s.streamPos - e.2)
      rcases List.mem_append.mp he with hmem | hmem
      · obtain ⟨hpos, hoff, halign⟩ := h.bound e hmem
        refine ⟨hpos, by omega, fun hset => ?_⟩
        rw [hcursor, show (s.cursor : ℤ) + skip - s.streamPos - e.2
          = s.cursor - s.streamPos - e.2 + skip by ring]
        exact dvd_add (halign hset) (hdvd hset)
      · obtain rfl := List.mem_singleton.mp hmem
        refine ⟨le_refl _, le_refl _, fun _ => ?_⟩
        rw [sub_self]
        exact dvd_zero _
    · intro _ u hu
      show deltaAt s.dlBase (s.segs ++ _) u = _
      rw [deltaAt_append, if_pos hu]
    · show s.cursor + skip.toNat + opts.batch ≤ s.rxHead
      omega
    · intro hset
      show opts.alignSamples ∣ ((s.cursor + skip.toNat : ℕ) : ℤ) - s.cursor
      rw [hcursor, add_sub_cancel_left]
      exact hdvd hset
  · rw [if_neg hjump]
    -- no jump: the segments stay
    refine ⟨?_, le_refl _, hready, ?_⟩
    · refine h.of_eq (fun _ => hbase) ?_ rfl rfl rfl rfl rfl
      intro hcase
      cases hcase
    · intro _
      show opts.alignSamples ∣ (s.cursor : ℤ) - s.cursor
      rw [sub_self]
      exact dvd_zero _

/-- **Step lemma of the mapping.** It does not depend on which samples are in the ring. -/
theorem MapInv.step {opts : DownlinkOptions} {s : Downlink α} (h : MapInv opts s)
    (a : DownlinkAction α) : MapInv opts (step opts s a) := by
  cases a with
  | packet p =>
    show MapInv opts (s.receive p)
    unfold receive
    split
    · split
      · exact h
      · exact h.of_eq h.started h.anchoring rfl rfl rfl rfl rfl
    · exact h
  | rxStep =>
    show MapInv opts s.rxStep
    unfold rxStep
    split
    · exact h
    all_goals exact h.of_eq h.started h.anchoring rfl rfl rfl rfl rfl
  | request =>
    show MapInv opts s.request
    unfold request
    split
    · by_cases hbase : s.dlBase < 0
      · rw [if_pos hbase]
        refine h.of_eq ?_ (fun _ => hbase) rfl rfl rfl rfl rfl
        rintro (hcase | ⟨out, hcase⟩) <;> cases hcase
      · rw [if_neg hbase]
        refine h.of_eq (fun _ => not_lt.mp hbase) ?_ rfl rfl rfl rfl rfl
        intro hcase
        cases hcase
    · exact h
  | dlStep =>
    show MapInv opts (s.dlStep opts)
    unfold dlStep
    split
    -- idle, anchoring, waiting for the window, and reading it
    case h_1 => exact h
    case h_2 hdl =>
      split
      · exact h
      · exact h.anchor hdl
    case h_3 hdl =>
      split
      · exact h
      · exact (h.serve hdl (by omega)).1
    case h_4 out hdl =>
      split
      · refine h.of_eq (fun _ => h.started (.inr ⟨out, hdl⟩)) ?_ rfl rfl rfl rfl rfl
        intro hcase
        cases hcase
      · exact h.finish hdl

/-- **Every run keeps the mapping.** -/
theorem MapInv.run (opts : DownlinkOptions) (actions : List (DownlinkAction α)) :
    MapInv opts (run opts actions) := by
  apply Run.invariant (I := MapInv opts)
  · intro s a h
    exact h.step a
  · exact MapInv.init opts

/-! ## The replies -/

/-- The samples of a reply that starts at stream position `pos` are those of the air, at the
absolute indices that the mapping gives. -/
def TimeTrue (s : Downlink α) (pos : ℕ) (reply : List α) : Prop :=
  ∀ i < reply.length, ∃ q : ℕ, (q : ℤ) = (pos + i : ℕ) + deltaAt s.dlBase s.segs (pos + i) ∧
    q < s.rxHead ∧ reply[i]? = some (received s.packets q)

/-- What the DL thread has served. -/
structure ServeInv (opts : DownlinkOptions) (s : Downlink α) : Prop where
  position : s.streamPos = s.replies.length * opts.batch
  reading : ∀ out, s.dl = .reading out → s.cursor + opts.batch ≤ s.rxHead ∧
    out.length ≤ opts.batch ∧ ∀ i < out.length, out[i]? = some (received s.packets (s.cursor + i))
  replies : ∀ (k : ℕ) reply, s.replies[k]? = some reply →
    reply.length = opts.batch ∧ TimeTrue s (k * opts.batch) reply

/-- The serve invariant holds at the start. -/
theorem ServeInv.init (opts : DownlinkOptions) : ServeInv opts (init opts : Downlink α) where
  position := (Nat.zero_mul opts.batch).symm
  reading := by
    intro out hdl
    cases hdl
  replies := by
    intro k reply hreply
    cases hreply

section Serve

variable {opts : DownlinkOptions} {s t : Downlink α}

/-- Nothing served changes when the head moves on and what has been received stays. -/
theorem ServeInv.of_grown (h : ServeInv opts s) (hhead : s.rxHead ≤ t.rxHead)
    (hair : ∀ q < s.rxHead, received t.packets q = received s.packets q)
    (hdl : t.dl = s.dl) (hcursor : t.cursor = s.cursor) (hpos : t.streamPos = s.streamPos)
    (hbase : t.dlBase = s.dlBase) (hsegs : t.segs = s.segs) (hreplies : t.replies = s.replies) :
    ServeInv opts t := by
  refine ⟨by rw [hpos, hreplies]; exact h.position, ?_, ?_⟩
  · intro out hout
    rw [hdl] at hout
    obtain ⟨hready, hlen, hcells⟩ := h.reading out hout
    rw [hcursor]
    refine ⟨le_trans hready hhead, hlen, ?_⟩
    intro i hi
    rw [hcells i hi, hair _ (by omega)]
  · intro k reply hreply
    rw [hreplies] at hreply
    obtain ⟨hlen, htrue⟩ := h.replies k reply hreply
    refine ⟨hlen, ?_⟩
    intro i hi
    obtain ⟨q, hq, hlt, hcell⟩ := htrue i hi
    refine ⟨q, by rw [hbase, hsegs]; exact hq, lt_of_lt_of_le hlt hhead, ?_⟩
    rw [hcell, hair q hlt]

/-- Entering a state of the DL thread without touching anything served. -/
theorem ServeInv.withDl (h : ServeInv opts s) {dl : DlThread α}
    (hdl : ∀ out, dl = .reading out → s.cursor + opts.batch ≤ s.rxHead ∧
      out.length ≤ opts.batch ∧
      ∀ i < out.length, out[i]? = some (received s.packets (s.cursor + i))) :
    ServeInv opts { s with dl := dl } where
  position := h.position
  reading := hdl
  replies := h.replies

/-- An entry at the position of the stream changes no offset of what has been served. -/
theorem ServeInv.jump (h : ServeInv opts s) {cursor : ℕ} {e : ℕ × ℤ} (he : e.1 = s.streamPos)
    (hready : cursor + opts.batch ≤ s.rxHead) :
    ServeInv opts { s with cursor := cursor, segs := s.segs ++ [e], dl := .reading [] } := by
  refine ⟨h.position, ?_, ?_⟩
  · intro out hout
    cases hout
    refine ⟨hready, Nat.zero_le _, ?_⟩
    intro i hi
    exact absurd hi (Nat.not_lt_zero i)
  · intro k reply hreply
    obtain ⟨hlen, htrue⟩ := h.replies k reply hreply
    refine ⟨hlen, ?_⟩
    intro i hi
    obtain ⟨q, hq, hlt, hcell⟩ := htrue i hi
    have hk : k < s.replies.length := (List.getElem?_eq_some_iff.mp hreply).1
    have hbefore : k * opts.batch + i < s.streamPos := by
      have hmul : (k + 1) * opts.batch ≤ s.replies.length * opts.batch :=
        Nat.mul_le_mul_right _ hk
      rw [h.position]
      rw [Nat.add_mul] at hmul
      omega
    refine ⟨q, ?_, hlt, hcell⟩
    show (q : ℤ) = _ + deltaAt s.dlBase (s.segs ++ [e]) _
    rw [deltaAt_append, if_neg (by omega)]
    exact hq

/-- Serving a block whose samples are there keeps the invariant. -/
theorem ServeInv.serve (h : ServeInv opts s)
    (hready : (s.serve opts).cursor + opts.batch ≤ s.rxHead) : ServeInv opts (s.serve opts) := by
  unfold Downlink.serve at hready ⊢
  by_cases hjump : Jumps opts ((s.rxHead : ℤ) - s.cursor)
  · rw [if_pos hjump] at hready ⊢
    exact h.jump rfl hready
  · rw [if_neg hjump] at hready ⊢
    apply h.withDl
    intro out hout
    cases hout
    refine ⟨hready, Nat.zero_le _, ?_⟩
    intro i hi
    exact absurd hi (Nat.not_lt_zero i)

/-- The base is set before anything has been served. -/
theorem ServeInv.anchor (h : ServeInv opts s) (hnone : s.replies = []) (cursor : ℕ) (base : ℤ)
    (segs : List (ℕ × ℤ)) :
    ServeInv opts { s with cursor := cursor, segs := segs, dlBase := base, dl := .waiting } := by
  refine ⟨h.position, ?_, ?_⟩
  · intro out hout
    cases hout
  · intro k reply hreply
    have hreply' : s.replies[k]? = some reply := hreply
    rw [hnone] at hreply'
    cases hreply'

/-- The reply of a full batch. -/
theorem ServeInv.finish (h : ServeInv opts s) (hmap : MapInv opts s) {out : List α}
    (hdl : s.dl = .reading out) (hfull : opts.batch ≤ out.length) :
    ServeInv opts { s with
      cursor := s.cursor + opts.batch, streamPos := s.streamPos + opts.batch
      replies := s.replies ++ [out], dl := .idle } := by
  obtain ⟨hready, hlen, hcells⟩ := h.reading out hdl
  have hbase : 0 ≤ s.dlBase := hmap.started (.inr ⟨out, hdl⟩)
  refine ⟨?_, ?_, ?_⟩
  · show s.streamPos + opts.batch = (s.replies ++ [out]).length * opts.batch
    rw [List.length_append, List.length_singleton, Nat.add_mul, Nat.one_mul, h.position]
  · intro out' hout
    cases hout
  · intro k reply hreply
    rcases lt_trichotomy k s.replies.length with hk | rfl | hk
    · rw [List.getElem?_append_left hk] at hreply
      exact h.replies k reply hreply
    · rw [List.getElem?_append_right (le_refl _), Nat.sub_self] at hreply
      cases hreply
      refine ⟨le_antisymm hlen hfull, ?_⟩
      rw [← h.position]
      intro i hi
      refine ⟨s.cursor + i, ?_, by show s.cursor + i < s.rxHead; omega, hcells i hi⟩
      show ((s.cursor + i : ℕ) : ℤ) = _ + deltaAt s.dlBase s.segs (s.streamPos + i)
      rw [hmap.current hbase _ (Nat.le_add_right _ _)]
      omega
    · rw [List.getElem?_eq_none (by rw [List.length_append, List.length_singleton]; omega)] at hreply
      cases hreply

end Serve

/-! ## Runs -/

/-- The load that the DL thread is about to do finds its sample still inside the ring. -/
def LoadInside (opts : DownlinkOptions) (s : Downlink α) : DlThread α → Prop
  | .reading out => opts.batch ≤ out.length ∨ s.touched ≤ s.cursor + out.length + opts.ringSize
  | _ => True

instance (opts : DownlinkOptions) (s : Downlink α) : ∀ dl, Decidable (LoadInside opts s dl)
  | .reading _ => inferInstanceAs (Decidable (_ ∨ _))
  | .idle => isTrue trivial
  | .anchoring => isTrue trivial
  | .waiting => isTrue trivial

/-- The condition on an access: a packet is at most the ring, and the window that is being
served is still inside it. -/
def Inside (opts : DownlinkOptions) (s : Downlink α) : DownlinkAction α → Prop
  | .packet p => p.samples.length ≤ opts.ringSize
  | .dlStep => LoadInside opts s s.dl
  | _ => True

instance (opts : DownlinkOptions) (s : Downlink α) : ∀ a, Decidable (Inside opts s a)
  | .packet p => inferInstanceAs (Decidable (p.samples.length ≤ opts.ringSize))
  | .dlStep => inferInstanceAs (Decidable (LoadInside opts s s.dl))
  | .rxStep => isTrue trivial
  | .request => isTrue trivial

structure DownlinkInv (opts : DownlinkOptions) (s : Downlink α) : Prop where
  rx : RxInv opts.ringSize s
  map : MapInv opts s
  serve : ServeInv opts s

/-- The RX thread publishes a packet behind the stores: what has been served stays. -/
theorem ServeInv.rxStep {opts : DownlinkOptions} {s : Downlink α} (h : ServeInv opts s)
    (hreached : Reached s.rxHead s.packets) : ServeInv opts s.rxStep := by
  unfold Downlink.rxStep
  split
  case h_1 => exact h
  case h_2 => exact h.of_grown (le_refl _) (fun _ _ => rfl) rfl rfl rfl rfl rfl rfl
  case h_3 p hrx =>
    refine h.of_grown ?_ ?_ rfl rfl rfl rfl rfl rfl
    · show s.rxHead ≤ headAfter s.rxHead p
      unfold headAfter
      split <;> omega
    · intro q hq
      exact received_append_of_some ((hreached q).mpr hq) p

/-- **Step lemma.** -/
theorem DownlinkInv.step {opts : DownlinkOptions} {s : Downlink α} (h : DownlinkInv opts s)
    {a : DownlinkAction α} (hinside : Inside opts s a) : DownlinkInv opts (step opts s a) := by
  refine ⟨?_, h.map.step a, ?_⟩
  -- the ring
  · cases a with
    | packet p => exact h.rx.receive hinside
    | rxStep => exact h.rx.rxStep
    | request =>
      show RxInv opts.ringSize s.request
      unfold request
      split
      · exact h.rx.of_eq rfl rfl rfl rfl rfl
      · exact h.rx
    -- serving reads the ring and writes none of it
    | dlStep =>
      show RxInv opts.ringSize (s.dlStep opts)
      unfold dlStep Downlink.serve
      split
      case h_1 => exact h.rx
      all_goals split
      all_goals first
        | exact h.rx
        | exact h.rx.of_eq rfl rfl rfl rfl rfl
        | (dsimp only; split <;> exact h.rx.of_eq rfl rfl rfl rfl rfl)
  -- what was served
  · cases a with
    | packet p =>
      show ServeInv opts (s.receive p)
      unfold receive
      split
      · split
        · exact h.serve
        · exact h.serve.of_grown (le_refl _) (fun _ _ => rfl) rfl rfl rfl rfl rfl rfl
      · exact h.serve
    | rxStep => exact h.serve.rxStep h.rx.reached
    | request =>
      show ServeInv opts s.request
      unfold request
      split
      · apply h.serve.withDl
        intro out hout
        split at hout <;> cases hout
      · exact h.serve
    | dlStep =>
      show ServeInv opts (s.dlStep opts)
      unfold dlStep
      split
      case h_1 => exact h.serve
      case h_2 hdl =>
        obtain ⟨-, -, hnone⟩ := h.map.fresh (h.map.anchoring hdl)
        split
        · exact h.serve
        · exact h.serve.anchor hnone _ _ _
      case h_3 hdl =>
        split
        · exact h.serve
        · exact h.serve.serve (h.map.serve hdl (by omega)).2.2.1
      case h_4 out hdl =>
        obtain ⟨hready, hlen, hcells⟩ := h.serve.reading out hdl
        split
        case isTrue hmore =>
          -- the sample read next has not been overwritten yet
          have hload : s.touched ≤ s.cursor + out.length + opts.ringSize := by
            have hin : LoadInside opts s s.dl := hinside
            rw [hdl] at hin
            rcases hin with hfull | hin
            · omega
            · exact hin
          have hcell := h.rx.load (by omega) hload
          apply h.serve.withDl
          intro out' hout
          cases hout
          refine ⟨hready, by rw [List.length_append, List.length_singleton]; omega, ?_⟩
          intro i hi
          rw [List.length_append, List.length_singleton] at hi
          by_cases hlt : i < out.length
          · rw [List.getElem?_append_left hlt, hcells i hlt]
          · obtain rfl : i = out.length := by omega
            rw [List.getElem?_append_right (le_refl _), Nat.sub_self, h.rx.length, hcell]
            rfl
        case isFalse hmore => exact h.serve.finish h.map hdl (by omega)

/-- **Run lemma.** -/
theorem DownlinkInv.run {opts : DownlinkOptions} {actions : List (DownlinkAction α)}
    (hinside : Run.Meets (Downlink.step opts) (Inside opts) (Downlink.init opts) actions) :
    DownlinkInv opts (Downlink.run opts actions) := by
  apply hinside.invariant (I := DownlinkInv opts)
  · intro s a h hs
    exact h.step hs
  · exact ⟨RxInv.init opts, MapInv.init opts, ServeInv.init opts⟩

/-- **The downlink stream is time-true.** In every interleaving in which the loads of the DL
thread are still inside the ring, sample `i` of reply `k` is the sample of the air at the
absolute index that `segs` gives for its stream position.  The entries of `segs` skip forward,
by whole alignments when one is set, and a step that decides on a jump leaves a whole received
batch in front of the cursor. -/
theorem downlink_time_true (opts : DownlinkOptions) (actions : List (DownlinkAction α))
    (hinside : Run.Meets (step opts) (Inside opts) (init opts) actions) :
    (∀ (k : ℕ) reply, (run opts actions).replies[k]? = some reply → reply.length = opts.batch ∧
      ∀ i < opts.batch, ∃ q : ℕ,
        (q : ℤ) = (k * opts.batch + i : ℕ) +
          deltaAt (run opts actions).dlBase (run opts actions).segs (k * opts.batch + i) ∧
        q < (run opts actions).rxHead ∧
        reply[i]? = some (received (run opts actions).packets q)) ∧
    (run opts actions).segs.Pairwise (Skips opts) ∧
    ∀ before after, actions = before ++ .dlStep :: after →
      (run opts before).dl = .waiting →
      (run opts before).cursor + opts.batch ≤ (run opts before).rxHead →
      (run opts before).cursor ≤ (run opts (before ++ [.dlStep])).cursor ∧
      (run opts (before ++ [.dlStep])).cursor + opts.batch ≤ (run opts before).rxHead ∧
      (0 < opts.alignSamples → opts.alignSamples ∣
        ((run opts (before ++ [.dlStep])).cursor : ℤ) - (run opts before).cursor) := by
  have h := DownlinkInv.run hinside
  refine ⟨?_, h.map.order, ?_⟩
  · intro k reply hreply
    obtain ⟨hlen, htrue⟩ := h.serve.replies k reply hreply
    refine ⟨hlen, ?_⟩
    intro i hi
    exact htrue i (by omega)
  · intro before after _ hdl hready
    have hstep : run opts (before ++ [.dlStep]) = (run opts before).serve opts := by
      unfold run
      rw [List.foldl_append]
      show dlStep opts (run opts before) = _
      rw [dlStep, hdl]
      exact if_neg (by omega)
    rw [hstep]
    exact ((MapInv.run opts before).serve hdl hready).2

/-- A ring of four samples and batches of one. -/
def jumpOptions : DownlinkOptions :=
  { batch := 1, maxBacklogSamples := 0, alignSamples := 2, ringSize := 4 }

/-- The stream is anchored behind the first packet; the second one leaves a gap and arrives
before the batch is read, which is then two samples late. -/
def jumpActions : List (DownlinkAction ℕ) :=
  [.packet ⟨0, [5]⟩, .rxStep, .rxStep, .request, .dlStep, .packet ⟨3, [7]⟩, .rxStep, .rxStep,
    .rxStep, .rxStep, .dlStep, .dlStep, .dlStep]

theorem downlink_time_true_jump :
    (run jumpOptions jumpActions).replies = [[7]] ∧
    (run jumpOptions jumpActions).segs = [(0, 1), (0, 3)] ∧
    ∃ q : ℕ, (q : ℤ) = (0 * 1 + 0 : ℕ) +
        deltaAt (run jumpOptions jumpActions).dlBase (run jumpOptions jumpActions).segs
          (0 * 1 + 0) ∧
      q < (run jumpOptions jumpActions).rxHead ∧
      [7][0]? = some (received (run jumpOptions jumpActions).packets q) :=
  ⟨by decide +kernel, by decide +kernel,
    ((downlink_time_true jumpOptions jumpActions (by decide +kernel)).1 0 [7]
      (by decide +kernel)).2 0 (by decide)⟩

end Downlink

end UsrpBridge
