/-
# Waiting on event counts

Workers share a state and wait for each other.  A worker that has to wait takes a ticket of the
generation of its signal, checks the state in several steps, and sleeps while the generation is
its ticket; a worker that changes the state raises the generations of the signals it has to.

The file wraps a step function of a base system into the system with signals, and gives the rule
by which a sleeping worker is shown to miss nothing: local obligations on the base step
(`Discipline`) and one invariant over the runs (`Discipline.heard`).
-/
import GpuChannel.Library.Run

namespace EventCount

/-- What a worker does next: take a ticket, take a step of the base system, raise the signals
that remain (and take a ticket `again` afterwards, or go on), or sleep. -/
inductive Pc (Sig : Type)
  | ticket
  | run
  | notify (todo : List Sig) (again : Bool)
  | blocked
  deriving DecidableEq

/-- A base system whose actions belong to workers; every worker waits for one signal. -/
structure Protocol (B A W Sig : Type*) where
  step : B → A → B
  worker : A → W
  signal : W → Sig

/-- The system with signals. -/
structure State (B W : Type*) (Sig : Type) where
  base : B
  generation : Sig → ℕ
  ticket : W → ℕ
  pc : W → Pc Sig

section Steps

variable {B A W : Type*} {Sig : Type} [DecidableEq W] [DecidableEq Sig]

/-- Move worker `w` to `pc`. -/
def State.goto (s : State B W Sig) (w : W) (pc : Pc Sig) : State B W Sig :=
  { s with pc := Function.update s.pc w pc }

/-- The state in which nothing was signalled yet. -/
def State.start (b : B) (pc : W → Pc Sig) : State B W Sig :=
  { base := b, generation := fun _ => 0, ticket := fun _ => 0, pc := pc }

/-- One step of the worker of `a`; `after` says how it goes on when it took a step of the base
system.  A sleeping worker that was signalled starts over. -/
def Protocol.next (P : Protocol B A W Sig) (after : B → A → Pc Sig) (s : State B W Sig) (a : A) :
    State B W Sig :=
  let w := P.worker a
  match s.pc w with
  | .ticket =>
      { s with ticket := Function.update s.ticket w (s.generation (P.signal w)) }.goto w .run
  | .run => { s with base := P.step s.base a }.goto w (after s.base a)
  | .notify (sig :: todo) again =>
      { s with generation := Function.update s.generation sig (s.generation sig + 1) }.goto w
        (.notify todo again)
  | .notify [] again => s.goto w (if again then .ticket else .run)
  | .blocked => if s.generation (P.signal w) ≠ s.ticket w then s.goto w .ticket else s

omit [DecidableEq Sig] in
@[simp] theorem State.goto_base (s : State B W Sig) (w : W) (pc : Pc Sig) :
    (s.goto w pc).base = s.base := rfl
omit [DecidableEq Sig] in
@[simp] theorem State.goto_generation (s : State B W Sig) (w : W) (pc : Pc Sig) :
    (s.goto w pc).generation = s.generation := rfl
omit [DecidableEq Sig] in
@[simp] theorem State.goto_ticket (s : State B W Sig) (w : W) (pc : Pc Sig) :
    (s.goto w pc).ticket = s.ticket := rfl
omit [DecidableEq Sig] in
@[simp] theorem State.goto_self (s : State B W Sig) (w : W) (pc : Pc Sig) :
    (s.goto w pc).pc w = pc := Function.update_self ..
omit [DecidableEq Sig] in
theorem State.goto_of_ne (s : State B W Sig) {w v : W} (h : v ≠ w) (pc : Pc Sig) :
    (s.goto w pc).pc v = s.pc v := Function.update_of_ne h ..

/-- A worker that goes on as `pc` owes `sig`: it is about to raise it, or `owing` says so of the
running worker. -/
def Owes (owing : B → W → Sig → Prop) (pc : Pc Sig) (b : B) (w : W) (sig : Sig) : Prop :=
  match pc with
  | .run => owing b w sig
  | .notify todo _ => sig ∈ todo
  | _ => False

/-- **The obligations on the base system.** `ready` is what must not escape a sleeping worker,
`missed` what must not escape one that is still checking, and `owing` the signals a running worker
has yet to raise for a change it made. -/
structure Discipline (P : Protocol B A W Sig) (after : B → A → Pc Sig) where
  Inv : B → Prop
  fresh : B → W → Prop
  missed : B → W → Prop
  ready : B → W → Prop
  owing : B → W → Sig → Prop
  inv_step : ∀ b a, Inv b → Inv (P.step b a)
  fresh_step : ∀ b a, Inv b → after b a ≠ .run → fresh (P.step b a) (P.worker a)
  fresh_frame : ∀ b a w, Inv b → w ≠ P.worker a → fresh b w → fresh (P.step b a) w
  not_missed : ∀ b w, Inv b → fresh b w → ¬ missed b w
  owing_step : ∀ b a sig, Inv b → owing b (P.worker a) sig →
    Owes owing (after b a) (P.step b a) (P.worker a) sig
  owing_frame : ∀ b a w sig, Inv b → w ≠ P.worker a → owing b w sig → owing (P.step b a) w sig
  missed_own : ∀ b a, Inv b → after b a = .run →
    missed (P.step b a) (P.worker a) → missed b (P.worker a)
  ready_own : ∀ b a, Inv b → after b a = .blocked →
    ready (P.step b a) (P.worker a) → missed b (P.worker a)
  missed_frame : ∀ b a w, Inv b → w ≠ P.worker a → missed (P.step b a) w →
    missed b w ∨ Owes owing (after b a) (P.step b a) (P.worker a) (P.signal w)
  ready_frame : ∀ b a w, Inv b → w ≠ P.worker a → ready (P.step b a) w →
    ready b w ∨ Owes owing (after b a) (P.step b a) (P.worker a) (P.signal w)

namespace Discipline

variable {P : Protocol B A W Sig} {after : B → A → Pc Sig} (D : Discipline P after)

/-- What must not escape worker `w`. -/
def watched (s : State B W Sig) (w : W) : Prop :=
  match s.pc w with
  | .run => D.missed s.base w
  | .blocked => D.ready s.base w
  | _ => False

/-- Worker `w` owes `sig`. -/
def owes (s : State B W Sig) (w : W) (sig : Sig) : Prop := Owes D.owing (s.pc w) s.base w sig

/-- The invariant of the runs. -/
structure Ok (s : State B W Sig) : Prop where
  base : D.Inv s.base
  ticket_le : ∀ w, s.ticket w ≤ s.generation (P.signal w)
  fresh : ∀ w, s.pc w ≠ .run → D.fresh s.base w
  heard : ∀ w, D.watched s w →
    s.generation (P.signal w) ≠ s.ticket w ∨ ∃ v, D.owes s v (P.signal w)

omit [DecidableEq W] [DecidableEq Sig] in
theorem ok_start {b : B} {pc : W → Pc Sig} (hb : D.Inv b) (hfresh : ∀ w, D.fresh b w)
    (hpc : ∀ w, pc w = .ticket ∨ pc w = .run) : D.Ok (State.start b pc) where
  base := hb
  ticket_le _ := le_refl _
  fresh w _ := hfresh w
  heard w hw := by
    unfold watched at hw
    rcases hpc w with h | h
    · rw [show (State.start b pc).pc w = Pc.ticket from h] at hw
      exact hw.elim
    · rw [show (State.start b pc).pc w = Pc.run from h] at hw
      exact absurd hw (D.not_missed b w hb (hfresh w))

omit [DecidableEq Sig] in
/-- A worker that moves without a change of state still hears everything. -/
theorem Ok.goto {s : State B W Sig} (h : D.Ok s) {w : W} {pc : Pc Sig}
    (hfresh : pc ≠ .run → D.fresh s.base w)
    (hwatched : D.watched (s.goto w pc) w → D.watched s w)
    (howes : ∀ sig, D.owes s w sig → D.owes (s.goto w pc) w sig) : D.Ok (s.goto w pc) := by
  refine ⟨h.base, h.ticket_le, ?_, ?_⟩
  · intro v hv
    by_cases hvw : v = w
    · subst hvw
      rw [s.goto_self] at hv
      exact hfresh hv
    · rw [s.goto_of_ne hvw] at hv
      exact h.fresh v hv
  · intro v hv
    have hbefore : D.watched s v := by
      by_cases hvw : v = w
      · subst hvw
        exact hwatched hv
      · unfold watched at hv ⊢
        rw [s.goto_of_ne hvw] at hv
        exact hv
    refine (h.heard v hbefore).imp id ?_
    rintro ⟨u, hu⟩
    refine ⟨u, ?_⟩
    by_cases huw : u = w
    · subst huw
      exact howes _ hu
    · unfold owes at hu ⊢
      rw [s.goto_of_ne huw]
      exact hu

omit [DecidableEq Sig] in
/-- Taking a ticket: nothing was checked yet. -/
theorem Ok.takeTicket {s : State B W Sig} (h : D.Ok s) {w : W} (hpc : s.pc w = .ticket) :
    D.Ok ({ s with
      ticket := Function.update s.ticket w (s.generation (P.signal w)) }.goto w .run) := by
  have hmissed : ¬ D.missed s.base w := D.not_missed _ _ h.base (h.fresh w (by rw [hpc]; simp))
  refine ⟨h.base, ?_, ?_, ?_⟩
  · intro v
    rw [State.goto_ticket, State.goto_generation]
    by_cases hvw : v = w
    · subst hvw
      exact (Function.update_self ..).le
    · dsimp only
      rw [Function.update_of_ne hvw]
      exact h.ticket_le v
  · intro v hv
    by_cases hvw : v = w
    · subst hvw
      exact absurd (State.goto_self _ _ _) hv
    · rw [State.goto_of_ne _ hvw] at hv
      exact h.fresh v hv
  · intro v hv
    -- a fresh worker has missed nothing, the others have heard what they had heard
    by_cases hvw : v = w
    · subst hvw
      unfold watched at hv
      rw [State.goto_self] at hv
      exact absurd hv hmissed
    · have hbefore : D.watched s v := by
        unfold watched at hv ⊢
        rw [State.goto_of_ne _ hvw] at hv
        exact hv
      rcases h.heard v hbefore with hgen | ⟨u, hu⟩
      · left
        rw [State.goto_ticket, State.goto_generation]
        dsimp only
        rw [Function.update_of_ne hvw]
        exact hgen
      · right
        refine ⟨u, ?_⟩
        have huw : u ≠ w := by
          rintro rfl
          unfold owes at hu
          rw [hpc] at hu
          exact hu
        unfold owes at hu ⊢
        rw [State.goto_of_ne _ huw]
        exact hu

/-- Raising a signal: whoever waits for it sees a new generation. -/
theorem Ok.raise {s : State B W Sig} (h : D.Ok s) {w : W} {sig : Sig} {todo : List Sig}
    {again : Bool} (hpc : s.pc w = .notify (sig :: todo) again) :
    D.Ok ({ s with
      generation := Function.update s.generation sig (s.generation sig + 1) }.goto w
        (.notify todo again)) := by
  -- the generation of a signal never falls
  have hle : ∀ sig', s.generation sig'
      ≤ Function.update s.generation sig (s.generation sig + 1) sig' := by
    intro sig'
    by_cases hsig : sig' = sig
    · subst hsig
      rw [Function.update_self]
      exact Nat.le_succ _
    · rw [Function.update_of_ne hsig]
  refine ⟨h.base, fun v => (h.ticket_le v).trans (hle _), ?_, ?_⟩
  · intro v hv
    by_cases hvw : v = w
    · subst hvw
      exact h.fresh v (by rw [hpc]; simp)
    · rw [State.goto_of_ne _ hvw] at hv
      exact h.fresh v hv
  · intro v hv
    rw [State.goto_generation, State.goto_ticket]
    dsimp only
    -- who waits for this signal has been told; of the others nothing changed
    by_cases hsig : P.signal v = sig
    · left
      rw [hsig, Function.update_self]
      have hticket := h.ticket_le v
      rw [hsig] at hticket
      omega
    · rw [Function.update_of_ne hsig]
      have hbefore : D.watched s v := by
        unfold watched at hv ⊢
        by_cases hvw : v = w
        · subst hvw
          rw [State.goto_self] at hv
          exact hv.elim
        · rw [State.goto_of_ne _ hvw] at hv
          exact hv
      refine (h.heard v hbefore).imp id ?_
      rintro ⟨u, hu⟩
      refine ⟨u, ?_⟩
      unfold owes at hu ⊢
      by_cases huw : u = w
      · subst huw
        rw [hpc] at hu
        rw [State.goto_self]
        exact (List.mem_cons.mp hu).resolve_left hsig
      · rw [State.goto_of_ne _ huw]
        exact hu

omit [DecidableEq Sig] in
/-- A step of the base system. -/
theorem Ok.base_step {s : State B W Sig} (h : D.Ok s) {a : A} (hpc : s.pc (P.worker a) = .run) :
    D.Ok ({ s with base := P.step s.base a }.goto (P.worker a) (after s.base a)) := by
  refine ⟨D.inv_step _ _ h.base, h.ticket_le, ?_, ?_⟩
  · intro v hv
    by_cases hvw : v = P.worker a
    · subst hvw
      rw [State.goto_self] at hv
      exact D.fresh_step _ _ h.base hv
    · rw [State.goto_of_ne _ hvw] at hv
      exact D.fresh_frame _ _ _ h.base hvw (h.fresh v hv)
  · intro v hv
    -- what the worker watched before the step, or a signal that it owes after it
    have hbefore : D.watched s v ∨
        Owes D.owing (after s.base a) (P.step s.base a) (P.worker a) (P.signal v) := by
      unfold watched at hv ⊢
      by_cases hvw : v = P.worker a
      · subst hvw
        rw [State.goto_self, State.goto_base] at hv
        rw [hpc]
        cases hafter : after s.base a with
        | run =>
            rw [hafter] at hv
            exact .inl (D.missed_own _ _ h.base hafter hv)
        | blocked =>
            rw [hafter] at hv
            exact .inl (D.ready_own _ _ h.base hafter hv)
        | ticket | notify =>
            rw [hafter] at hv
            exact hv.elim
      · rw [State.goto_of_ne _ hvw, State.goto_base] at hv
        cases hv' : s.pc v with
        | run =>
            rw [hv'] at hv
            exact D.missed_frame _ _ _ h.base hvw hv
        | blocked =>
            rw [hv'] at hv
            exact D.ready_frame _ _ _ h.base hvw hv
        | ticket | notify =>
            rw [hv'] at hv
            exact hv.elim
    have hself : ∀ sig, Owes D.owing (after s.base a) (P.step s.base a) (P.worker a) sig →
        D.owes ({ s with base := P.step s.base a }.goto (P.worker a) (after s.base a))
          (P.worker a) sig := by
      intro sig howes
      unfold owes
      rw [State.goto_self]
      exact howes
    rcases hbefore with hwatched | howes
    · refine (h.heard v hwatched).imp id ?_
      rintro ⟨u, hu⟩
      refine ⟨u, ?_⟩
      by_cases huw : u = P.worker a
      · subst huw
        unfold owes at hu
        rw [hpc] at hu
        exact hself _ (D.owing_step _ _ _ h.base hu)
      · unfold owes at hu ⊢
        rw [State.goto_of_ne _ huw]
        cases hu' : s.pc u with
        | run =>
            rw [hu'] at hu
            exact D.owing_frame _ _ _ _ h.base huw hu
        | ticket | notify | blocked =>
            rw [hu'] at hu
            exact hu
    · exact .inr ⟨_, hself _ howes⟩

theorem Ok.next {s : State B W Sig} (h : D.Ok s) (a : A) : D.Ok (P.next after s a) := by
  unfold Protocol.next
  dsimp only
  cases hpc : s.pc (P.worker a) with
  | ticket => exact h.takeTicket D hpc
  | run => exact h.base_step D hpc
  | notify todo again =>
      have hfresh : D.fresh s.base (P.worker a) := h.fresh _ (by rw [hpc]; simp)
      cases todo with
      | cons sig todo => exact h.raise D hpc
      | nil =>
          refine h.goto D (fun _ => hfresh) ?_ ?_
          · unfold watched
            rw [State.goto_self]
            cases again with
            | true => exact fun hw => hw.elim
            | false => exact fun hw => absurd hw (D.not_missed _ _ h.base hfresh)
          · intro sig hsig
            unfold owes at hsig
            rw [hpc] at hsig
            exact absurd hsig List.not_mem_nil
  | blocked =>
      dsimp only
      split_ifs
      · refine h.goto D (fun _ => h.fresh _ (by rw [hpc]; simp)) ?_ ?_
        · unfold watched
          rw [State.goto_self]
          exact fun hw => hw.elim
        · intro sig hsig
          unfold owes at hsig
          rw [hpc] at hsig
          exact hsig.elim
      · exact h

/-- **No lost wake.** In every run, what must not escape a worker was signalled after it took its
ticket, or some worker owes the signal. -/
theorem heard {b : B} {pc : W → Pc Sig} (hb : D.Inv b) (hfresh : ∀ w, D.fresh b w)
    (hpc : ∀ w, pc w = .ticket ∨ pc w = .run) (actions : List A) :
    D.Ok (actions.foldl (P.next after) (State.start b pc)) :=
  Run.invariant (I := D.Ok) (fun _ a h => Ok.next D h a) (D.ok_start hb hfresh hpc) actions

end Discipline

end Steps

end EventCount
