/-
# The rows of a slot on the CPU

The shaping pass of `process_superposition`, with its result: every lane runs its chain once, behind
the one snap of its link, and each output row is the sum of the lanes that end at it.
-/
import GpuChannel.CallOutcome
import GpuChannel.Library.RowSums

section CpuRows

variable {K : Type} [Field K] [LinearOrder K] [FloorRing K] [Libm K] [Rng K]

open CpuChannelProcessor

/-- The item that a lane adds to its row. -/
def laneItem (lr : SuperpositionInput K × ChainRun K) : ℕ × List (Iq K) :=
  (lr.1.rxPort.toNat, lr.2.out)

variable (p₀ : CpuChannelProcessor K) (links : LinkTable K) (count rate : ℕ)

/-- **The run of a lane**: its chain behind the snap of its link, on this slot's samples. -/
structure LaneRan (lane : SuperpositionInput K) (run : ChainRun K) : Prop where
  samples : lane.samples.length = count
  port : 0 ≤ lane.rxPort
  ran : ∀ model st link, lane.model = some model → p₀.states lane.linkKey = some st →
    p₀.links st.link = some link → ∃ fading,
      links st.link = some { (link.slotSnap count).1 with fading := fading } ∧
        runChain (laneContext (refreshLane (link.slotSnap count).1 (link.slotSnap count).2 st)
            { (link.slotSnap count).1 with fading := fading } rate) 0 model.chain
          (refreshLane (link.slotSnap count).1 (link.slotSnap count).2 st).steps lane.samples = .ok run

/-- The state of a lane behind its run. -/
def LaneLeft (q : CpuChannelProcessor K) (lane : SuperpositionInput K) (run : ChainRun K) : Prop :=
  ∀ st link, p₀.states lane.linkKey = some st → p₀.links st.link = some link →
    q.states lane.linkKey = some
      { refreshLane (link.slotSnap count).1 (link.slotSnap count).2 st with steps := run.states }

variable {p₀ links count} {inputs todo : List (SuperpositionInput K)}
  {slot slot' : CpuChannelProcessor.Slot K}

/-- **One lane of the shaping pass**, with what it adds. -/
theorem ShapedTo.shapeLane_ran (hready : LanesReady p₀ inputs)
    (hlinks : LinksSnapped p₀ inputs count links) (hcount : count ≠ 0)
    {lane : SuperpositionInput K} (hlane : lane ∈ inputs)
    (h : ShapedTo p₀ inputs count links (lane :: todo) slot)
    (hok : CpuChannelProcessor.shapeLane count rate slot lane = .ok slot') :
    ∃ run, LaneRan p₀ links count rate lane run ∧ LaneLeft p₀ count slot'.proc lane run ∧
      slot'.rows = RowSums.add slot.rows (laneItem (lane, run)) ∧
      ∀ key ≠ lane.linkKey, slot'.proc.states key = slot.proc.states key := by
  obtain ⟨model, st, link, fading, hmodel, hst, hlink, hsnapped, hens, hread⟩ :=
    h.next hready hlinks hlane
  unfold CpuChannelProcessor.shapeLane at hok
  rw [hmodel] at hok
  dsimp only at hok
  split_ifs at hok with hsize hport
  rw [ne_eq, not_not] at hsize
  -- the chain runs, because the slot is not empty
  have hsome : lane.samples ≠ [] := by
    intro hnil
    rw [hnil, List.length_nil] at hsize
    exact hcount hsize.symm
  rw [applyChainToLink_read slot.proc hmodel hsome hread rate, hens] at hok
  obtain ⟨shaped, hshaped, hok⟩ := bind_eq_ok hok
  obtain ⟨run, hrun, hshaped⟩ := bind_eq_ok hshaped
  cases hshaped
  cases hok
  refine ⟨run, ⟨hsize, by omega, ?_⟩, ?_, rfl, ?_⟩
  · intro model' st' link' hmodel' hst' hlink'
    obtain rfl := Option.some.inj (hmodel.symm.trans hmodel')
    obtain rfl := Option.some.inj (hst.symm.trans hst')
    obtain rfl := Option.some.inj (hlink.symm.trans hlink')
    exact ⟨fading, hsnapped, hrun⟩
  · intro st' link' hst' hlink'
    obtain rfl := Option.some.inj (hst.symm.trans hst')
    obtain rfl := Option.some.inj (hlink.symm.trans hlink')
    exact Function.update_self ..
  · intro key hkey
    exact Function.update_of_ne hkey ..

/-- **The shaping pass**, with the run of every lane. -/
theorem ShapedTo.shape_ran (hready : LanesReady p₀ inputs)
    (hlinks : LinksSnapped p₀ inputs count links) (hcount : count ≠ 0) (hsub : todo ⊆ inputs)
    (hnodup : (todo.map (·.linkKey)).Nodup) (h : ShapedTo p₀ inputs count links todo slot)
    (hok : todo.foldlM (CpuChannelProcessor.shapeLane count rate) slot = .ok slot') :
    ∃ runs, List.Forall₂ (fun lane run => LaneRan p₀ links count rate lane run ∧
        LaneLeft p₀ count slot'.proc lane run) todo runs ∧
      slot'.rows = ((todo.zip runs).map laneItem).foldl RowSums.add slot.rows ∧
      ∀ key ∉ todo.map (·.linkKey), slot'.proc.states key = slot.proc.states key := by
  induction todo generalizing slot with
  | nil =>
      cases hok
      exact ⟨[], List.Forall₂.nil, rfl, fun _ _ => rfl⟩
  | cons lane todo ih =>
      rw [List.cons_subset] at hsub
      rw [List.map_cons, List.nodup_cons] at hnodup
      rw [List.foldlM_cons] at hok
      obtain ⟨mid, hmid, hok⟩ := bind_eq_ok hok
      have hother : ∀ other ∈ todo, other.linkKey ≠ lane.linkKey := by
        intro other hother heq
        exact hnodup.1 (heq ▸ List.mem_map_of_mem hother)
      have hnext := ((h.shapeLane hready hlinks hcount hsub.1 hother rate).2 mid hmid).1
      obtain ⟨run, hran, hleft, hrows, hkept⟩ := h.shapeLane_ran rate hready hlinks hcount hsub.1 hmid
      obtain ⟨runs, hruns, hrest, hkept'⟩ := ih hsub.2 hnodup.2 hnext hok
      refine ⟨run :: runs, List.Forall₂.cons ⟨hran, ?_⟩ hruns, ?_, ?_⟩
      · intro st link hst hlink
        rw [hkept' _ hnodup.1]
        exact hleft st link hst hlink
      · rw [hrest, hrows, List.zip_cons_cons, List.map_cons, List.foldl_cons]
      · intro key hkey
        rw [List.map_cons, List.mem_cons, not_or] at hkey
        rw [hkept' key hkey.2, hkept key hkey.1]

variable {p q : CpuChannelProcessor K} {call : SuperpositionCall K} {rows : List (List (Iq K))}

/-- **A call without a receiver model**: the run of every lane, and the rows that they sum to. -/
theorem serve_ran (hready : LanesReady p call.inputs) {nr : ℕ} (hnr : nr ≠ 0)
    (hsizes : call.rowSizes = List.replicate nr count) (hpos : count ≠ 0)
    (hmodel : call.rxModel = none) (hserve : p.serve call = .ok (q, rows)) :
    ∃ links runs, List.Forall₂ (fun lane run => LaneRan p links count call.sampleRateHz lane run ∧
        LaneLeft p count q lane run) call.inputs runs ∧
      rows = ((call.inputs.zip runs).map laneItem).foldl RowSums.add
        (List.replicate nr (List.replicate count 0)) := by
  obtain ⟨m, rfl⟩ := Nat.exists_eq_succ_of_ne_zero hnr
  unfold CpuChannelProcessor.serve processSuperposition at hserve
  rw [hsizes, List.replicate_succ] at hserve
  dsimp only at hserve
  split_ifs at hserve
  obtain ⟨⟨q₁, touched⟩, hgen, hserve⟩ := bind_eq_ok hserve
  have hstart : Generated p call.inputs count (p, []) := Generated.start
  obtain ⟨hgenerated, -, hall⟩ :=
    (hstart.generate hready (List.Subset.refl _) call.sampleRateHz).2 _ hgen
  obtain ⟨q₂, hmix, hserve⟩ := bind_eq_ok hserve
  obtain ⟨hshaped, hlinks⟩ := (hgenerated.mix q₂ hmix).shaped hall
    ((count :: List.replicate m count).map fun size => List.replicate size 0)
  obtain ⟨slot, hslot, hserve⟩ := bind_eq_ok hserve
  obtain ⟨runs, hruns, hrows, -⟩ := hshaped.shape_ran call.sampleRateHz hready hlinks hpos
    (List.Subset.refl _) hready.nodup hslot
  rw [hmodel] at hserve
  obtain ⟨rfl, rfl⟩ := Prod.mk.inj (Except.ok.inj hserve)
  refine ⟨q₂.links, runs, ?_, ?_⟩
  · refine hruns.imp fun lane run hran => ⟨hran.1, ?_⟩
    intro st link hst hlink
    rw [advanceClocks_states]
    exact hran.2 st link hst hlink
  · rw [hrows]
    congr 1
    rw [List.map_cons, List.map_replicate]
    rfl

end CpuRows
