/-
# Two emulators that nobody can tell apart

An emulator is a control server in front of a processor.  Clients send it messages and the radio nodes
ask it for slots, in any order.  One emulator runs on the CPU and one on the GPU, both prepared from
the same static topology: whatever the CPU emulator answers, the GPU emulator answers too, reply for
reply and row for row.  The checks of the control server matter here, since the GPU refuses swaps that
the CPU would take; no such swap reaches a link.
-/
import GpuChannel.BackendPrepare
import GpuChannel.DeviceBounds

/-! ## Emulators -/

section Emulators

/-- **A backend**: the links of a processor, and how it serves a call. -/
structure Backend (K P : Type) where
  links : P → LinkTable K
  publish : P → List (Publication K) → P
  serve : P → SuperpositionCall K → Except String (P × List (List (Iq K)))

/-- **An emulator**: the control server, and the processor behind it. -/
structure Emulator (K P : Type) where
  server : ControlServer K
  processor : P

/-- What happens to an emulator: a message of a client, or a slot of a node. -/
inductive EmulatorEvent (K : Type)
  | message (fields : JsonObject K)
  | slot (node : ResolvedNode) (air : String → List (Iq K)) (count : ℕ)

/-- What an emulator answers. -/
inductive Answer (K : Type)
  | reply (reply : Reply)
  | rows (rows : List (List (Iq K)))

section Step

variable {K P : Type} [Field K] [LinearOrder K] [FloorRing K] [Libm K]

/-- **One event.** -/
def Backend.step (backend : Backend K P) (config : TopologyConfig K) (resolved : ResolvedTopology)
    (e : Emulator K P) : EmulatorEvent K → Except String (Emulator K P × Answer K)
  | .message fields =>
      let handled := handleMessage e.server (backend.links e.processor).linkMap fields
      .ok (⟨handled.server, backend.publish e.processor handled.published⟩, .reply handled.reply)
  | .slot node air count => do
      let served ← backend.serve e.processor
        (nodeCall config resolved node (fun lane => air lane.srcDevice) count)
      pure (⟨e.server, served.1⟩, .rows served.2)

variable (K) [Rng K]

def cpuBackend : Backend K (CpuChannelProcessor K) where
  links p := p.links
  publish p ps := { p with links := p.links.publishAll ps }
  serve := CpuChannelProcessor.serve

def cudaBackend [Curand K] : Backend K (CudaChannelProcessor K) where
  links c := c.links
  publish c ps := { c with links := c.links.publishAll ps }
  serve := CudaChannelProcessor.serve

end Step

/-! ## The name of the backend -/

/-- The reply of a server with this backend name. -/
def Reply.renamed (name : String) : Reply → Reply
  | .batchCommitted batchId _ linkCount applyAtSlot links =>
      .batchCommitted batchId (if name.isEmpty then "unknown" else name) linkCount applyAtSlot links
  | r => r

def Answer.renamed {K : Type} (name : String) : Answer K → Answer K
  | .reply r => .reply (r.renamed name)
  | .rows out => .rows out

section Renamed

variable {K : Type} [Field K] [LinearOrder K] [FloorRing K] [Libm K]

/-- What a handler leaves behind on a server with this backend name. -/
def Handled.renamed (name : String) (h : Handled K) : Handled K :=
  { server := { h.server with backendName := name }
    published := h.published, reply := h.reply.renamed name }

variable (srv : ControlServer K) (links : LinkMap K) (fields : JsonObject K) (name : String)

theorem handleScalarUpdate_renamed :
    handleScalarUpdate { srv with backendName := name } links fields =
      (handleScalarUpdate srv links fields).renamed name := by
  have hsame : scalarRequest { srv with backendName := name } links fields =
      scalarRequest srv links fields := rfl
  unfold handleScalarUpdate
  rw [hsame]
  cases scalarRequest srv links fields with
  | error reason => rfl
  | ok r => cases hbatch : r.batch <;> simp only [hbatch] <;> rfl

omit [Libm K] in
theorem handleProfileSwap_renamed :
    handleProfileSwap { srv with backendName := name } links fields =
      (handleProfileSwap srv links fields).renamed name := by
  have hsame : profileRequest { srv with backendName := name } links fields =
      profileRequest srv links fields := rfl
  unfold handleProfileSwap
  rw [hsame]
  cases profileRequest srv links fields with
  | error reason => rfl
  | ok r => cases hbatch : r.batch <;> simp only [hbatch] <;> rfl

omit [Libm K] in
theorem handleMatrixProfileSwap_renamed :
    handleMatrixProfileSwap { srv with backendName := name } links fields =
      (handleMatrixProfileSwap srv links fields).renamed name := by
  have hsame : matrixRequest { srv with backendName := name } links fields =
      matrixRequest srv links fields := rfl
  unfold handleMatrixProfileSwap
  rw [hsame]
  cases matrixRequest srv links fields with
  | error reason => rfl
  | ok r => cases hbatch : r.batch <;> simp only [hbatch] <;> rfl

theorem handleCorrelationSwap_renamed :
    handleCorrelationSwap { srv with backendName := name } links fields =
      (handleCorrelationSwap srv links fields).renamed name := by
  unfold handleCorrelationSwap
  cases correlationRequest links fields <;> rfl

omit [Field K] [LinearOrder K] [FloorRing K] [Libm K] in
theorem handleBatchBegin_renamed :
    handleBatchBegin { srv with backendName := name } fields =
      (handleBatchBegin srv fields).renamed name := by
  unfold handleBatchBegin
  cases batchId "batch_begin" fields with
  | error reason => rfl
  | ok bid =>
      dsimp only
      split_ifs <;> rfl

omit [Libm K] in
theorem handleBatchCommit_renamed :
    handleBatchCommit { srv with backendName := name } links fields =
      (handleBatchCommit srv links fields).renamed name := by
  have hsame : commitRequest { srv with backendName := name } fields = commitRequest srv fields := rfl
  unfold handleBatchCommit
  rw [hsame]
  cases commitRequest srv fields <;> rfl

omit [Field K] [LinearOrder K] [FloorRing K] [Libm K] in
theorem handleBatchAbort_renamed :
    handleBatchAbort { srv with backendName := name } fields =
      (handleBatchAbort srv fields).renamed name := by
  unfold handleBatchAbort
  cases batchId "batch_abort" fields with
  | error reason => rfl
  | ok bid =>
      have hsame : openBatch { srv with backendName := name } "batch_abort" bid =
          openBatch srv "batch_abort" bid := rfl
      simp only [bind, Except.bind, hsame]
      cases openBatch srv "batch_abort" bid <;> rfl

/-- **The backend name shows in the reply to a commit, and nowhere else.** -/
theorem handleMessage_renamed :
    handleMessage { srv with backendName := name } links fields =
      (handleMessage srv links fields).renamed name := by
  unfold handleMessage dispatch
  cases getString fields "type" "scalar" with
  | error reason => rfl
  | ok type =>
      dsimp only
      split_ifs
      · exact handleScalarUpdate_renamed { srv with msgsReceived := srv.msgsReceived + 1 } ..
      · exact handleProfileSwap_renamed { srv with msgsReceived := srv.msgsReceived + 1 } ..
      · exact handleMatrixProfileSwap_renamed { srv with msgsReceived := srv.msgsReceived + 1 } ..
      · exact handleCorrelationSwap_renamed { srv with msgsReceived := srv.msgsReceived + 1 } ..
      · exact handleBatchBegin_renamed { srv with msgsReceived := srv.msgsReceived + 1 } ..
      · exact handleBatchCommit_renamed { srv with msgsReceived := srv.msgsReceived + 1 } ..
      · exact handleBatchAbort_renamed { srv with msgsReceived := srv.msgsReceived + 1 } ..
      · rfl

end Renamed

end Emulators

/-! ## Both emulators -/

noncomputable section

section Both

variable [Rng ℝ] [Curand ℝ] {config : TopologyConfig ℝ} {resolved : ResolvedTopology}

/-- An update that fits every lane of the link. -/
def FitsLink (resolved : ResolvedTopology) (linkId : String) (u : Update ℝ) : Prop :=
  ∀ lane ∈ resolved.lanes, lane.physicalLinkKey = linkId → u.Fits lane.place

omit [Rng ℝ] [Curand ℝ] in
/-- **The checks of the server let nothing through that does not fit the device.** -/
theorem vouches_fits (hresolved : resolveTopology config = .ok resolved)
    (hkeys : KeysDistinct config resolved) (hstatic : StaticTopology config resolved)
    {p : CpuChannelProcessor ℝ} (hstand : LanesStand config resolved MatrixHints p)
    (srv : ControlServer ℝ) : Vouches srv p.links.linkMap (FitsLink resolved) := by
  constructor
  · exact fun _ _ _ _ _ _ => trivial
  · exact fun _ r hr _ _ _ => profileRequest_fits hr
  · intro fields r hr lane hlane hkey
    obtain ⟨hlink, hcount, hfits⟩ := matrixRequest_fits hr
    obtain ⟨model, -, -, hmodel, -⟩ := hstatic.lanes lane hlane
    obtain ⟨st, link, -, -, -, hthere, hnt, hnr⟩ := hstand.lanes lane hlane model hmodel
    have hcontrol : link.control = r.control := by
      have hmap : p.links.linkMap r.linkId = some link.control := by
        unfold LinkTable.linkMap
        rw [← hkey, hthere]
        rfl
      exact Option.some.inj (hmap.symm.trans hlink)
    refine ⟨?_, hfits⟩
    rw [hcount, ← hcontrol, hnt, hnr]
    exact (groupable hresolved hkeys.links).room lane hlane
  · exact fun _ _ _ _ _ _ => trivial

/-- **Both emulators**, between two events. -/
structure EmulatorsParallel (config : TopologyConfig ℝ) (resolved : ResolvedTopology) (name : String)
    (e : Emulator ℝ (CpuChannelProcessor ℝ)) (e' : Emulator ℝ (CudaChannelProcessor ℝ)) : Prop where
  server : e'.server = { e.server with backendName := name }
  waiting : BatchesHold e.server (FitsLink resolved)
  processors : BackendsParallel config resolved e.processor e'.processor

/-- **An event that the GPU was prepared for**: any message, and the slots of a node with an incoming
lane, of at most as many samples as its batches hold. -/
def EmulatorEvent.Prepared (config : TopologyConfig ℝ) (resolved : ResolvedTopology) :
    EmulatorEvent ℝ → Prop
  | .message _ => True
  | .slot node _ count => node ∈ resolved.nodes ∧ nodeLanes config resolved node ≠ [] ∧ count ≠ 0 ∧
      count ≤ resolveBatchSamples config.runtime node.sampleRateHz

/-- **One event on both emulators.** -/
theorem EmulatorsParallel.step (hresolved : resolveTopology config = .ok resolved)
    (hkeys : KeysDistinct config resolved) (hnodes : (resolved.nodes.map (·.id)).Nodup)
    (hstatic : StaticTopology config resolved) {name : String}
    (e : Emulator ℝ (CpuChannelProcessor ℝ)) (e' : Emulator ℝ (CudaChannelProcessor ℝ))
    (event : EmulatorEvent ℝ) (t : Emulator ℝ (CpuChannelProcessor ℝ)) (answer : Answer ℝ)
    (h : EmulatorsParallel config resolved name e e') (hevent : event.Prepared config resolved)
    (hok : (cpuBackend ℝ).step config resolved e event = .ok (t, answer)) :
    ∃ t', (cudaBackend ℝ).step config resolved e' event = .ok (t', answer.renamed name) ∧
      EmulatorsParallel config resolved name t t' := by
  cases event with
  | message fields =>
      cases hok
      have hkeeps := (vouches_fits hresolved hkeys hstatic h.processors.stand
        { e.server with msgsReceived := e.server.msgsReceived + 1 }).handleMessage_keeps h.waiting fields
      have hhandled : handleMessage e'.server ((cudaBackend ℝ).links e'.processor).linkMap fields =
          (handleMessage e.server e.processor.links.linkMap fields).renamed name := by
        have hmap : ((cudaBackend ℝ).links e'.processor).linkMap = e.processor.links.linkMap :=
          h.processors.controls.symm
        rw [h.server, hmap, handleMessage_renamed]
      refine ⟨_, congrArg (fun handled : Handled ℝ => Except.ok ((⟨handled.server,
        (cudaBackend ℝ).publish e'.processor handled.published⟩ : Emulator ℝ _),
          Answer.reply handled.reply)) hhandled, rfl, hkeeps.batches, ?_⟩
      exact h.processors.publish fun pub hpub lane hlane hkey =>
        hkeeps.published pub hpub lane hlane hkey
  | slot node air count =>
      obtain ⟨hnode, hlanes, hpos, hcapacity⟩ := hevent
      obtain ⟨⟨q, rows⟩, hserve, hok⟩ := bind_eq_ok hok
      cases hok
      obtain ⟨c', hcuda, hparallel⟩ := h.processors.slot hresolved hkeys hnodes hnode hlanes hpos
        hcapacity hserve
      refine ⟨⟨e'.server, c'⟩, ?_, h.server, h.waiting, hparallel⟩
      have hcuda' : (cudaBackend ℝ).serve e'.processor
          (nodeCall config resolved node (fun lane => air lane.srcDevice) count) = .ok (c', rows) :=
        hcuda
      unfold Backend.step
      dsimp only
      rw [hcuda']
      rfl

/-- **Two emulators that nobody can tell apart.** -/
theorem backends_indistinguishable (hresolved : resolveTopology config = .ok resolved)
    (hkeys : KeysDistinct config resolved) (hnodes : (resolved.nodes.map (·.id)).Nodup)
    (hstatic : StaticTopology config resolved)
    {p : CpuChannelProcessor ℝ} (hcpu : CpuChannelProcessor.prepare config = .ok p)
    {c : CudaChannelProcessor ℝ} (hcuda : CudaChannelProcessor.prepare config = .ok c)
    (warmupCapSlots : ℤ) (cpuName cudaName : String) {events : List (EmulatorEvent ℝ)}
    (hevents : ∀ event ∈ events, event.Prepared config resolved)
    {left : Emulator ℝ (CpuChannelProcessor ℝ)} {answers : List (Answer ℝ)}
    (hrun : Run.trace ((cpuBackend ℝ).step config resolved)
      ⟨ControlServer.start ℝ warmupCapSlots cpuName, p⟩ events = .ok (left, answers)) :
    ∃ left', Run.trace ((cudaBackend ℝ).step config resolved)
      ⟨ControlServer.start ℝ warmupCapSlots cudaName, c⟩ events =
        .ok (left', answers.map (Answer.renamed cudaName)) := by
  have hinit : EmulatorsParallel config resolved cudaName
      ⟨ControlServer.start ℝ warmupCapSlots cpuName, p⟩
      ⟨ControlServer.start ℝ warmupCapSlots cudaName, c⟩ :=
    ⟨rfl, fun _ hbatch => absurd hbatch List.not_mem_nil,
      prepare_parallel hresolved hkeys hnodes hstatic hcpu hcuda⟩
  obtain ⟨left', htrace, -⟩ := Run.trace_simulation
    (EmulatorsParallel.step hresolved hkeys hnodes hstatic) hinit hevents hrun
  exact ⟨left', htrace⟩

end Both

/-! ## A room -/

/-- One tap, a loss and a carrier offset behind it. -/
def roomModel : ModelConfig ℝ :=
  { id := "room"
    chain := [
      { type := .tdl, taps := [⟨2, 0, 0, false, 0, 0⟩], tapsDeclared := true
        fadingFDMaxHz := 0, fadingGridUs := 100 },
      { type := .pathLoss, params := [("path_loss_db", 20)], fadingFDMaxHz := 0, fadingGridUs := 100 },
      { type := .cfo, params := [("cfo_hz", 100)], fadingFDMaxHz := 0, fadingGridUs := 100 }] }

def roomDevice (id : String) : DeviceConfig ℝ :=
  { id := id, txEndpoint := "tcp://*:" ++ id, rxEndpoint := "tcp://" ++ id
    txTimingOffsetSamples := 0, txScaleDb := 0 }

/-- Two devices in the room. -/
def roomConfig : TopologyConfig ℝ :=
  { devices := [roomDevice "a", roomDevice "b"]
    links := [{ fromNode := "a", toNode := "b", model := "room", declaredModel := "room"
                propagationDelaySamples := 0 }]
    models := [("room", roomModel)] }

def roomNode : ResolvedNode := ⟨"b", ["b"], ["b"], 23040000, ""⟩

/-- A batch is opened, the second device takes a slot, and the batch is committed. -/
def roomEvents : List (EmulatorEvent ℝ) :=
  [.message [("type", .string "batch_begin"), ("id", .string "night")],
   .slot roomNode (fun _ => [⟨1, 0⟩, ⟨0, 1⟩]) 2,
   .message [("type", .string "batch_commit"), ("id", .string "night")]]

theorem roomModel_static : StaticModel roomModel (roomModel.chain.get ⟨0, by decide⟩)
    (roomModel.chain.drop 1) := by
  refine ⟨rfl, rfl, rfl, List.cons_ne_nil _ _, ?_⟩
  intro step hstep
  rcases List.mem_cons.mp hstep with rfl | hstep
  · exact Or.inl rfl
  · rw [List.mem_singleton.mp hstep]
    exact Or.inr (Or.inr (Or.inr rfl))

theorem backends_indistinguishable_room :
    let _ : Rng ℝ := ⟨fun _ => 0, fun _ _ => 0, fun _ _ => 0⟩
    let _ : Curand ℝ := ⟨fun _ _ => 0⟩
    ∃ resolved p c left answers left', CpuChannelProcessor.prepare roomConfig = .ok p ∧
      CudaChannelProcessor.prepare roomConfig = .ok c ∧ answers.length = 3 ∧
      Run.trace ((cpuBackend ℝ).step roomConfig resolved) ⟨ControlServer.start ℝ 4 "cpu", p⟩
        roomEvents = .ok (left, answers) ∧
      Run.trace ((cudaBackend ℝ).step roomConfig resolved) ⟨ControlServer.start ℝ 4 "cuda", c⟩
        roomEvents = .ok (left', answers.map (Answer.renamed "cuda")) := by
  intro _ _
  have hrun : (resolveTopology roomConfig).toOption.any (fun resolved =>
      decide ((resolved.lanes.map (·.modelId)) = ["room"] ∧
        (resolved.lanes.map (·.key)).Nodup ∧ (rowKeys resolved).Nodup ∧
        (∀ key ∈ rowKeys resolved, key ∉ roomConfig.links.map linkKey) ∧
        (∀ key ∈ rowKeys resolved, key ∉ resolved.lanes.map (·.key)) ∧
        (resolved.nodes.map (·.id)).Nodup ∧ (∀ node ∈ resolved.nodes, node.rxModel = "") ∧
        roomNode ∈ resolved.nodes ∧ (nodeLanes roomConfig resolved roomNode).length = 1) &&
      (CpuChannelProcessor.prepare roomConfig).toOption.any fun p =>
        (Run.trace ((cpuBackend ℝ).step roomConfig resolved) ⟨ControlServer.start ℝ 4 "cpu", p⟩
          roomEvents).toOption.any fun out => decide (out.2.length = 3)) = true := by
    decide +kernel
  cases hresolved : resolveTopology roomConfig with
  | error e =>
      rw [hresolved] at hrun
      cases hrun
  | ok resolved =>
      rw [hresolved] at hrun
      obtain ⟨htopology, hrun⟩ := Bool.and_eq_true_iff.mp hrun
      obtain ⟨hmodels, hlanes, hrows, hrowsLinks, hrowsLanes, hnodes, hplain, hnode, hlane⟩ :=
        of_decide_eq_true htopology
      have hkeys : KeysDistinct roomConfig resolved :=
        ⟨List.nodup_singleton _, hlanes, hrows, hrowsLinks, hrowsLanes⟩
      have hmodel : ∀ lane ∈ resolved.lanes, roomConfig.findModel lane.modelId = some roomModel := by
        intro lane hlane
        have hid := List.mem_map_of_mem (f := fun lane : LaneConfig => lane.modelId) hlane
        rw [hmodels, List.mem_singleton] at hid
        rw [hid]
        rfl
      have hstatic : StaticTopology roomConfig resolved := by
        refine ⟨fun lane hlane => ⟨_, _, _, hmodel lane hlane, roomModel_static⟩, ?_⟩
        intro node hnode
        unfold rowModel
        rw [hplain node hnode]
        rfl
      have hfits : ∀ lane ∈ resolved.lanes, ∀ model first rest,
          roomConfig.findModel lane.modelId = some model → StaticModel model first rest →
            FitsDeviceModel model first := by
        intro lane hlane model first rest hfind hfirst
        obtain rfl := Option.some.inj ((hmodel lane hlane).symm.trans hfind)
        obtain ⟨rfl, -⟩ := List.cons.inj hfirst.chain
        refine ⟨by decide, ?_, rfl⟩
        intro tap htap
        rw [List.mem_singleton.mp htap]
        unfold TapSpec.exceedsDevice kMaxProfileDelaySamples
        norm_num
      obtain ⟨c, hcuda⟩ := cuda_prepare_ok hresolved hstatic hnodes hfits hkeys
      cases hcpu : CpuChannelProcessor.prepare roomConfig with
      | error e =>
          rw [hcpu] at hrun
          cases hrun
      | ok p =>
          rw [hcpu] at hrun
          cases htrace : Run.trace ((cpuBackend ℝ).step roomConfig resolved)
              ⟨ControlServer.start ℝ 4 "cpu", p⟩ roomEvents with
          | error e =>
              change (Run.trace ((cpuBackend ℝ).step roomConfig resolved)
                ⟨ControlServer.start ℝ 4 "cpu", p⟩ roomEvents).toOption.any _ = true at hrun
              rw [htrace] at hrun
              cases hrun
          | ok out =>
              change (Run.trace ((cpuBackend ℝ).step roomConfig resolved)
                ⟨ControlServer.start ℝ 4 "cpu", p⟩ roomEvents).toOption.any _ = true at hrun
              rw [htrace] at hrun
              obtain ⟨left, answers⟩ := out
              have hlength : answers.length = 3 := of_decide_eq_true hrun
              have hevents : ∀ event ∈ roomEvents, event.Prepared roomConfig resolved := by
                refine List.forall_mem_cons.mpr ⟨trivial, List.forall_mem_cons.mpr ⟨?_,
                  List.forall_mem_singleton.mpr trivial⟩⟩
                refine ⟨hnode, ?_, by decide, by decide +kernel⟩
                intro hnil
                rw [hnil] at hlane
                cases hlane
              obtain ⟨left', htrace'⟩ := backends_indistinguishable hresolved hkeys hnodes hstatic
                hcpu hcuda 4 "cpu" "cuda" hevents htrace
              exact ⟨resolved, p, c, left, answers, left', rfl, hcuda, hlength, htrace, htrace'⟩

end
