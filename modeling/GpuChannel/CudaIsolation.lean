/-
# Nodes of the CUDA processor

A call works on the slots, links and device state of its own node, and a publication on its own
link.  So the nodes of a topology are owners that share nothing: in every interleaving of calls and
publications each node gets the rows it would get alone, and neighbours of different nodes commute.
-/
import GpuChannel.CudaRuns
import GpuChannel.Library.Footprints

section CudaIsolation

variable {K : Type} [Field K] [LinearOrder K] [FloorRing K] [Libm K]

open CudaChannelProcessor Footprint

/-! ## The part of a node -/

/-- The slots `S`, the links `L` and the state of the node. -/
noncomputable def nodeShare (S L : Set String) (node : String) :
    Footprint (CudaChannelProcessor K) where
  put p q :=
    { linkSlots := carry S p.linkSlots q.linkSlots
      superposeStates := carry {node} p.superposeStates q.superposeStates
      links := carry L p.links q.links }
  put_self p := by
    simp only [carry_self]
  put_put p q r := by
    simp only [carry_carry]
  put_of_put p q r := by
    simp only [carry_of_carry]

omit [Field K] [LinearOrder K] [FloorRing K] [Libm K] in
/-- Parts without a common slot, link or node are apart. -/
theorem nodeShare_apart {S L S' L' : Set String} {node node' : String} (hS : Disjoint S S')
    (hL : Disjoint L L') (hne : node ≠ node') :
    (nodeShare S L node : Footprint (CudaChannelProcessor K)).Apart (nodeShare S' L' node') := by
  intro p q r
  have hnode : Disjoint ({node} : Set String) {node'} := Set.disjoint_singleton.mpr hne
  unfold nodeShare
  dsimp only
  rw [carry_comm hS, carry_comm hL, carry_comm hnode]

/-- The slots `S` stand in the links `L`. -/
def WiredInto (S L : Set String) (slots : String → Option (LinkModelState K)) : Prop :=
  ∀ key ∈ S, ∀ ms, slots key = some ms → ms.link ∈ L

omit [Field K] [LinearOrder K] [FloorRing K] [Libm K] in
theorem WiredInto.congr {S L : Set String} {slots slots' : String → Option (LinkModelState K)}
    (h : WiredInto S L slots) (hwiring : SameWiring.All slots slots') : WiredInto S L slots' := by
  intro key hkey ms' hms'
  obtain ⟨ms, hms, hsame⟩ := hwiring.to_some hms'
  rw [hsame.link]
  exact h key hkey ms hms

/-! ## The passes of a call, framed -/

section Passes

variable {S L : Set String} {slots : String → Option (LinkModelState K)} {links : LinkTable K}
  (slots₀ : String → Option (LinkModelState K)) (links₀ : LinkTable K) {count rate : ℕ}

omit [Libm K] in
/-- The snap pass reads and writes inside the part. -/
theorem snapInputs_frame (count : ℕ) (hwired : WiredInto S L slots) {inputs : List (SuperpositionInput K)}
    (hinputs : ∀ input ∈ inputs, input.linkKey ∈ S) (acc : LinkTable K × List (String × LinkSnapOutcome))
    (hacc : ∀ k ∈ acc.2.map (·.1), k ∈ L) :
    inputs.foldl (snapInput count (carry S slots₀ slots)) (carry L links₀ acc.1, acc.2) =
        (carry L links₀ (inputs.foldl (snapInput count slots) acc).1,
          (inputs.foldl (snapInput count slots) acc).2) ∧
      ∀ k ∈ (inputs.foldl (snapInput count slots) acc).2.map (·.1), k ∈ L := by
  induction inputs generalizing acc with
  | nil => exact ⟨rfl, hacc⟩
  | cons input inputs ih =>
      rw [List.forall_mem_cons] at hinputs
      rw [List.foldl_cons, List.foldl_cons]
      have hstep : snapInput count (carry S slots₀ slots) (carry L links₀ acc.1, acc.2) input =
          (carry L links₀ (snapInput count slots acc input).1, (snapInput count slots acc input).2) ∧
          ∀ k ∈ (snapInput count slots acc input).2.map (·.1), k ∈ L := by
        unfold snapInput
        rw [carry_of_mem hinputs.1]
        cases hslot : slots input.linkKey with
        | none => exact ⟨rfl, hacc⟩
        | some ms =>
            have hlink : ms.link ∈ L := hwired _ hinputs.1 ms hslot
            dsimp only
            by_cases hseen : (acc.2.lookup ms.link).isSome = true
            · rw [if_pos hseen, if_pos hseen]
              exact ⟨rfl, hacc⟩
            · rw [if_neg hseen, if_neg hseen, carry_of_mem hlink, update_carry hlink]
              refine ⟨rfl, fun k hk => ?_⟩
              rw [List.map_append, List.mem_append, List.map_singleton, List.mem_singleton] at hk
              rcases hk with hk | rfl
              · exact hacc k hk
              · exact hlink
      rw [hstep.1]
      exact ih hinputs.2 _ hstep.2

/-- The staged edges with the slots outside the part. -/
noncomputable def outsideSlots (S : Set String) (slots₀ : String → Option (LinkModelState K))
    (acc : Staging K) : Staging K :=
  { acc with slots := carry S slots₀ acc.slots }

variable {sp : CudaSuperposeState K} {outcomes : List (String × LinkSnapOutcome)}
  {sources : List (List (Iq K))}

/-- One edge stays inside the part. -/
theorem stageEdge_frame {acc : Staging K} (hwired : WiredInto S L acc.slots)
    {edge : SuperpositionInput K × ℕ} (hkey : edge.1.linkKey ∈ S) :
    stageEdge sp (carry L links₀ links) outcomes sources count rate (outsideSlots S slots₀ acc) edge =
      (stageEdge sp links outcomes sources count rate acc edge).map (outsideSlots S slots₀) := by
  unfold stageEdge outsideSlots
  dsimp only
  cases edge.1.model with
  | none => rfl
  | some model =>
      dsimp only
      -- the size of the samples and the length of the chain
      refine ite_eq_map rfl (ite_eq_map rfl ?_)
      rw [carry_of_mem hkey]
      cases hslot : acc.slots edge.1.linkKey with
      | none => rfl
      | some ms =>
          dsimp only
          rw [carry_of_mem (hwired _ hkey ms hslot)]
          -- both paths write the slot of the edge, and nothing else that is shared
          cases hpath : sp.useDeviceChannel with
          | true =>
              rw [if_pos rfl, if_pos rfl, map_bind_ok]
              refine bind_congr fun d => ?_
              rw [if_pos rfl, if_pos rfl, map_bind_ok]
              refine bind_congr fun staged => ?_
              rw [update_carry hkey]
              rfl
          | false =>
              rw [if_neg Bool.false_ne_true, if_neg Bool.false_ne_true, map_bind_ok]
              refine bind_congr fun d => ?_
              rw [if_neg Bool.false_ne_true, if_neg Bool.false_ne_true, map_bind_ok]
              refine bind_congr fun staged => ?_
              rw [update_carry hkey]
              rfl

/-- The edge loop keeps the wiring, one edge at a time. -/
theorem stageEdge_wiring {acc acc' : Staging K} {edge : SuperpositionInput K × ℕ}
    (h : stageEdge sp links outcomes sources count rate acc edge = .ok acc') :
    SameWiring.All acc.slots acc'.slots := by
  obtain ⟨model, ms, d, slot, staged, groups, -, -, hms, hstaged, rfl⟩ := stageEdge_eq_ok h
  exact (SameWiring.All.refl _).update hms
    (hstaged.sameWiring.trans (SameWiring.built slot model _ count rate))

theorem stageEdges_frame {edges : List (SuperpositionInput K × ℕ)} {acc : Staging K}
    (hwired : WiredInto S L acc.slots) (hkeys : ∀ e ∈ edges, e.1.linkKey ∈ S) :
    edges.foldlM (stageEdge sp (carry L links₀ links) outcomes sources count rate)
        (outsideSlots S slots₀ acc) =
      (edges.foldlM (stageEdge sp links outcomes sources count rate) acc).map
        (outsideSlots S slots₀) := by
  induction edges generalizing acc with
  | nil => rfl
  | cons e edges ih =>
      rw [List.forall_mem_cons] at hkeys
      rw [List.foldlM_cons, List.foldlM_cons, stageEdge_frame slots₀ links₀ hwired hkeys.1]
      cases hstep : stageEdge sp links outcomes sources count rate acc e with
      | error e => rfl
      | ok acc' => exact ih (hwired.congr (stageEdge_wiring hstep)) hkeys.2

omit [Field K] [LinearOrder K] [FloorRing K] [Libm K] in
/-- The clocks of links inside the part. -/
theorem advanceClocks_frame {touched : List String} (htouched : ∀ k ∈ touched, k ∈ L) :
    advanceClocks (carry L links₀ links) touched count =
      carry L links₀ (advanceClocks links touched count) := by
  unfold CudaChannelProcessor.advanceClocks
  induction touched generalizing links with
  | nil => rfl
  | cons k touched ih =>
      rw [List.forall_mem_cons] at htouched
      rw [List.foldl_cons, List.foldl_cons, carry_of_mem htouched.1, update_carry htouched.1]
      exact ih htouched.2

omit [Field K] [LinearOrder K] [FloorRing K] [Libm K] in
/-- Publications to links inside the part. -/
theorem publishAll_frame {ps : List (Publication K)} (hps : ∀ pub ∈ ps, pub.linkId ∈ L) :
    LinkTable.publishAll (carry L links₀ links) ps = carry L links₀ (links.publishAll ps) := by
  unfold LinkTable.publishAll
  induction ps generalizing links with
  | nil => rfl
  | cons pub ps ih =>
      rw [List.forall_mem_cons] at hps
      rw [List.foldl_cons, List.foldl_cons, carry_of_mem hps.1, update_carry hps.1]
      exact ih hps.2

end Passes

/-! ## A call, framed -/

section Call

variable [Curand K] {S L : Set String} {node : String}

/-- **A call depends on the part of its node, and changes nothing beside it.** -/
theorem cudaServe_frame (p : CudaChannelProcessor K) {q : CudaChannelProcessor K}
    {call : SuperpositionCall K} (hwired : WiredInto S L q.linkSlots) (hnode : call.dstKey = node)
    (hinputs : ∀ input ∈ call.inputs, input.linkKey ∈ S) :
    ((nodeShare S L node).put p q).serve call =
      (q.serve call).map fun r => ((nodeShare S L node).put p r.1, r.2) := by
  subst hnode
  have hstate : ((nodeShare S L call.dstKey).put p q).superposeStates call.dstKey =
      q.superposeStates call.dstKey := carry_of_mem rfl
  unfold CudaChannelProcessor.serve CudaChannelProcessor.processSuperposition
  cases call.rowSizes with
  | nil => rfl
  | cons count sizes =>
      dsimp only
      rw [hstate]
      cases hsp : q.superposeStates call.dstKey with
      | none => rfl
      | some sp =>
          dsimp only
          -- rows, equal sizes, an idle call, the capacity and a call without edges
          refine ite_eq_map rfl (ite_eq_map rfl (ite_eq_map rfl (ite_eq_map rfl
            (ite_eq_map rfl ?_))))
          rw [map_bind_ok]
          refine bind_congr fun _ => ?_
          -- the receiver and the packed sources
          refine ite_eq_map rfl (ite_eq_map rfl ?_)
          -- the snap pass, then the edge loop from what it snapped
          obtain ⟨hsnaps, htouched⟩ := snapInputs_frame p.linkSlots p.links count hwired
            hinputs (q.links, []) (fun _ hk => absurd hk List.not_mem_nil)
          have hput : ((nodeShare S L call.dstKey).put p q).linkSlots =
            carry S p.linkSlots q.linkSlots := rfl
          have hputLinks : ((nodeShare S L call.dstKey).put p q).links =
            carry L p.links q.links := rfl
          rw [hput, hputLinks, hsnaps]
          generalize call.inputs.foldl (snapInput count q.linkSlots) (q.links, []) = snaps
            at htouched ⊢
          obtain ⟨links, outcomes⟩ := snaps
          dsimp only at htouched ⊢
          have hkeys : ∀ e ∈ call.inputs.zipIdx, e.1.linkKey ∈ S :=
            fun e he => hinputs e.1 (List.fst_mem_of_mem_zipIdx he)
          have hstart : WiredInto S L (⟨q.linkSlots, sp.linkStates, sp.groups, StepTable.empty K, [],
              []⟩ : Staging K).slots := hwired
          have hfold : call.inputs.zipIdx.foldlM
              (stageEdge sp (carry L p.links links) outcomes (packSources sp call.inputs) count
                call.sampleRateHz)
              ⟨carry S p.linkSlots q.linkSlots, sp.linkStates, sp.groups, StepTable.empty K, [], []⟩ =
                (call.inputs.zipIdx.foldlM
                  (stageEdge sp links outcomes (packSources sp call.inputs) count
                    call.sampleRateHz)
                  ⟨q.linkSlots, sp.linkStates, sp.groups, StepTable.empty K, [], []⟩).map
                    (outsideSlots S p.linkSlots) :=
            stageEdges_frame p.linkSlots p.links hstart hkeys
          -- what the call writes back: the clocks of its links and the state of its node
          have hclocks := fun links => @advanceClocks_frame K L links p.links count
            (outcomes.map (·.1)) htouched
          have hstates : ∀ v, Function.update ((nodeShare S L call.dstKey).put p q).superposeStates
              call.dstKey v = carry {call.dstKey} p.superposeStates
                (Function.update q.superposeStates call.dstKey v) :=
            fun v => update_carry (Set.mem_singleton _) _ _ v
          rw [hfold, map_bind_ok]
          generalize (call.inputs.zipIdx.foldlM
            (stageEdge sp links outcomes (packSources sp call.inputs) count call.sampleRateHz)
            ⟨q.linkSlots, sp.linkStates, sp.groups, StepTable.empty K, [], []⟩ :
              Except String (Staging K)) = folded
          cases folded with
          | error e => rfl
          | ok acc =>
              rw [show Except.map (outsideSlots S p.linkSlots) (Except.ok acc : Except String _) =
                .ok (outsideSlots S p.linkSlots acc) from rfl, ok_bind, ok_bind]
              cases call.rxModel with
              | none =>
                  dsimp only
                  rw [map_bind_ok]
                  refine bind_congr fun received => ?_
                  rw [hclocks, hstates]
                  rfl
              | some model =>
                  dsimp only
                  rw [map_bind_ok]
                  refine bind_congr fun received => ?_
                  rw [hclocks, hstates]
                  rfl

/-- A call that returns leaves the wiring as it was. -/
theorem cudaServe_wiring {p q : CudaChannelProcessor K} {call : SuperpositionCall K}
    {rows : List (List (Iq K))} (h : p.serve call = .ok (q, rows)) :
    SameWiring.All p.linkSlots q.linkSlots := by
  rcases cudaServe_eq_ok h with ⟨rfl, -⟩ | ⟨sp, acc, rx, hserved⟩
  · exact SameWiring.All.refl _
  · rw [hserved.after]
    exact hserved.passed.wiring

end Call

/-! ## The nodes as owners -/

section Nodes

variable {config : TopologyConfig K} (resolved : ResolvedTopology)

/-- The node that a lane key belongs to. -/
def slotOwner (key : String) : String :=
  ((resolved.lanes.find? (·.key = key)).map (·.dstNode)).getD ""

/-- The node that a link key belongs to. -/
def linkOwner (k : String) : String :=
  ((resolved.lanes.find? (·.physicalLinkKey = k)).map (·.dstNode)).getD ""

/-- The node that an event is for: that of the call, or that of the first publication. -/
def eventOwner : ServiceEvent K → String
  | .call call => call.dstKey
  | .publish ps => (ps.head?.map fun pub => linkOwner resolved pub.linkId).getD ""

/-- The event is for one node. -/
def EventOwned : ServiceEvent K → Prop
  | .call call => ∀ input ∈ call.inputs, slotOwner resolved input.linkKey = call.dstKey
  | .publish ps => ∀ pub ∈ ps, linkOwner resolved pub.linkId = eventOwner resolved (.publish ps)

/-- What a node owns. -/
noncomputable def ownShare (id : String) : Footprint (CudaChannelProcessor K) :=
  nodeShare {key | slotOwner resolved key = id} {k | linkOwner resolved k = id} id

/-- The slots of a node stand in its links. -/
def OwnWired (id : String) (p : CudaChannelProcessor K) : Prop :=
  WiredInto {key | slotOwner resolved key = id} {k | linkOwner resolved k = id} p.linkSlots

variable [Rng K] [Curand K]

omit [Rng K] in
/-- **The nodes share nothing**, and every event works on the part of its node. -/
theorem nodes_own : Owners (ownShare resolved) (OwnWired (K := K) resolved) (eventOwner resolved)
    CudaChannelProcessor.serviceStep (EventOwned resolved) where
  apart i j hne := by
    have hdisjoint : ∀ owner : String → String, Disjoint {key | owner key = i} {key | owner key = j} := by
      intro owner
      rw [Set.disjoint_left]
      rintro key rfl hj
      exact hne hj
    exact nodeShare_apart (hdisjoint _) (hdisjoint _) hne
  concerns i p q := by
    have hsame : ∀ key ∈ {key | slotOwner resolved key = i},
        ((ownShare resolved i).put p q).linkSlots key = q.linkSlots key :=
      fun key hkey => carry_of_mem hkey
    constructor
    · intro h key hkey ms hms
      exact h key hkey ms ((hsame key hkey).trans hms)
    · intro h key hkey ms hms
      exact h key hkey ms ((hsame key hkey).symm.trans hms)
  isLocal event howned := by
    -- a publication never fails, so only a call can be refused
    cases event with
    | call call =>
        constructor
        · intro p q hwired
          exact cudaServe_frame p hwired rfl howned
        · rintro q ⟨r, rows⟩ hwired hserve
          exact hwired.congr (cudaServe_wiring hserve)
    | publish ps =>
        constructor
        · intro p q hwired
          have hlinks := @publishAll_frame K
            {k | linkOwner resolved k = eventOwner resolved (.publish ps)} q.links p.links ps howned
          refine congrArg Except.ok (Prod.ext ?_ rfl)
          change ({ linkSlots := _, superposeStates := _, links := LinkTable.publishAll (carry _ _ _) ps } :
            CudaChannelProcessor K) = _
          rw [hlinks]
          rfl
        · rintro q r hwired hstep
          obtain rfl := Except.ok.inj hstep
          exact hwired

variable {resolved} {p : CudaChannelProcessor K} {events : List (ServiceEvent K)}

omit [FloorRing K] [Libm K] [Rng K] [Curand K] in
/-- A lane and its link belong to the same node. -/
theorem slotOwner_eq (hresolved : resolveTopology config = .ok resolved)
    (hkeys : KeysDistinct config resolved) {lane : LaneConfig} (hlane : lane ∈ resolved.lanes) :
    slotOwner resolved lane.key = linkOwner resolved lane.physicalLinkKey := by
  have hfound : ∀ (f : LaneConfig → String), ∃ other ∈ resolved.lanes, f other = f lane ∧
      resolved.lanes.find? (fun l => decide (f l = f lane)) = some other := by
    intro f
    have hsome : (resolved.lanes.find? fun l => decide (f l = f lane)).isSome = true := by
      rw [List.find?_isSome]
      exact ⟨lane, hlane, decide_eq_true rfl⟩
    obtain ⟨other, hother⟩ := Option.isSome_iff_exists.mp hsome
    have hsame := List.find?_some hother
    exact ⟨other, List.mem_of_find?_eq_some hother, of_decide_eq_true hsame, hother⟩
  obtain ⟨a, ha, hkey, hfindKey⟩ := hfound (·.key)
  obtain ⟨b, hb, hlink, hfindLink⟩ := hfound (·.physicalLinkKey)
  obtain rfl := lane_of_key hkeys ha hlane hkey
  unfold slotOwner linkOwner
  rw [hfindKey, hfindLink, Option.map_some, Option.map_some, Option.getD_some, Option.getD_some]
  exact (dstNode_of_link hresolved hkeys hb ha hlink).symm

omit [Curand K] in
/-- `prepare` wires every slot into a link of its own node. -/
theorem Built.ownWired (hresolved : resolveTopology config = .ok resolved)
    (hkeys : KeysDistinct config resolved) (h : Built config resolved p) (id : String) :
    OwnWired resolved id p := by
  intro key hkey ms hms
  obtain ⟨lane, hlane, model, los, rfl, -, rfl⟩ := h.slots key ms hms
  exact (slotOwner_eq hresolved hkeys hlane).symm.trans hkey

/-- **The nodes of the CUDA processor are isolated.**  A run of calls and publications, each for one
node, goes through exactly if every node's own events do; each node then gets the rows of its own
events alone and is left as they leave it; and behind any run, neighbouring events of different
nodes may be exchanged, with the same rows and the same state. -/
theorem cuda_nodes_isolated (hresolved : resolveTopology config = .ok resolved)
    (hkeys : KeysDistinct config resolved) (hprepare : CudaChannelProcessor.prepare config = .ok p)
    (hevents : ∀ event ∈ events, EventOwned resolved event) :
    ((∃ q seen, Run.trace CudaChannelProcessor.serviceStep p events = .ok (q, seen)) ↔
      ∀ id, ∃ q seen, Run.trace CudaChannelProcessor.serviceStep p
        (own (eventOwner resolved) id events) = .ok (q, seen)) ∧
    ∀ q seen, Run.trace CudaChannelProcessor.serviceStep p events = .ok (q, seen) →
      (∀ id, ∃ last, Run.trace CudaChannelProcessor.serviceStep p
          (own (eventOwner resolved) id events) =
            .ok (last, ownSeen (eventOwner resolved) id events seen) ∧
          (ownShare resolved id).put last q = last) ∧
      ∀ a b, EventOwned resolved a → EventOwned resolved b →
        eventOwner resolved a ≠ eventOwner resolved b → ∀ qa x qab y,
          q.serviceStep a = .ok (qa, x) → qa.serviceStep b = .ok (qab, y) →
            ∃ qb, q.serviceStep b = .ok (qb, y) ∧ qb.serviceStep a = .ok (qab, x) := by
  have howners : Owners (ownShare resolved) (OwnWired (K := K) resolved) _ _ _ := nodes_own resolved
  have hwired : ∀ id, OwnWired resolved id p :=
    (cudaPrepare_built hresolved hprepare).ownWired hresolved hkeys
  have halone : ∀ q seen, Run.trace CudaChannelProcessor.serviceStep p events = .ok (q, seen) →
      ∀ id, ∃ last, Run.trace CudaChannelProcessor.serviceStep p
          (own (eventOwner resolved) id events) =
            .ok (last, ownSeen (eventOwner resolved) id events seen) ∧
          (ownShare resolved id).put last q = last :=
    fun q seen hrun id =>
      howners.trace_alone hevents hwired hrun id ((ownShare resolved id).put_self p)
  refine ⟨⟨?_, ?_⟩, ?_⟩
  · rintro ⟨q, seen, hrun⟩ id
    obtain ⟨last, hlast, -⟩ := halone q seen hrun id
    exact ⟨last, _, hlast⟩
  · intro hruns
    refine howners.trace_of_alone hevents hwired fun id => ?_
    obtain ⟨q, seen, hrun⟩ := hruns id
    exact ⟨p, q, seen, (ownShare resolved id).put_self p, hwired id, hrun⟩
  · intro q seen hrun
    refine ⟨halone q seen hrun, ?_⟩
    intro a b ha hb hne qa x qab y hqa hqab
    -- the wiring stands in every state that the run reaches
    have hq : ∀ id, OwnWired resolved id q :=
      Run.trace_invariant (fun s e t o hs he hstep => howners.keeps he hs hstep) hwired hevents hrun
    exact (howners.isLocal a ha).commute (howners.isLocal b hb) (howners.apart _ _ hne) (hq _) (hq _)
      hqa hqab

end Nodes

end CudaIsolation

theorem cuda_nodes_isolated_hall : let _ : Curand ℚ := quiet
    ∃ resolved p q seen, CudaChannelProcessor.prepare mixedHall = .ok p ∧
      Run.trace CudaChannelProcessor.serviceStep p hallEvents = .ok (q, seen) ∧
      (Footprint.own (eventOwner resolved) "b" hallEvents).length = 3 ∧
      ∃ last, Run.trace CudaChannelProcessor.serviceStep p
        (Footprint.own (eventOwner resolved) "b" hallEvents) =
          .ok (last, Footprint.ownSeen (eventOwner resolved) "b" hallEvents seen) := by
  intro _
  obtain ⟨resolved, p, q, seen, hresolved, hkeys, hprepare, -, htrace, -⟩ := hall_runs
  have htable : (resolveTopology mixedHall).toOption.any (fun resolved => decide
      ((∀ call ∈ [hallCall 1, hallReply, hallCall 2], ∀ input ∈ call.inputs,
        slotOwner resolved input.linkKey = call.dstKey) ∧
        (Footprint.own (eventOwner resolved) "b" hallEvents).length = 3)) = true := by
    decide +kernel
  rw [hresolved] at htable
  obtain ⟨howned, hthree⟩ := of_decide_eq_true htable
  have hevents : ∀ event ∈ hallEvents, EventOwned resolved event := by
    intro event hevent
    unfold hallEvents at hevent
    simp only [List.mem_cons, List.not_mem_nil, or_false] at hevent
    rcases hevent with rfl | rfl | rfl | rfl
    · exact howned _ (by simp)
    · intro pub hpub
      rw [List.mem_singleton.mp hpub]
      rfl
    · exact howned _ (by simp)
    · exact howned _ (by simp)
  obtain ⟨last, hlast, -⟩ :=
    ((cuda_nodes_isolated hresolved hkeys hprepare hevents).2 q seen htrace).1 "b"
  exact ⟨resolved, p, q, seen, hprepare, htrace, hthree, last, hlast⟩
