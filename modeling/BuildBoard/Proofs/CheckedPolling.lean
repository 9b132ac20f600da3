import BuildBoard.Program
import BuildBoard.Proofs.Overflow
import BuildBoard.Proofs.Polling

/-!
# Polling that may break off

The loop of the program checks what it calculates, so a round may break off after its fetch. As long
as none does, the program polls as without checks: it fetches, publishes and sleeps as the trace of
a run says, and ends as that does. While the documents are moderate none does.

Results:
1. `Program.checkedPublish_eq`: a frame that can be drawn is published as without checks.
2. `Script.checkedTurn_run`, `Script.checkedTurn_breaks`: a round, in a scripted world.
3. `checked_polling`: polling with any documents.
4. `moderate_polling`: polling with moderate documents.
-/

namespace BuildBoard

open Checked

/-! ## The world of a program that may break off -/

section Lifted

variable {m : Type → Type} [Monad m] [LawfulMonad m] (host : PollHost m)

theorem lift_pure (a : α) : (ExceptT.lift (pure a) : ExceptT Figure m α) = pure a :=
  ExceptT.ext (by rw [ExceptT.run_lift, map_pure]; rfl)

theorem lift_bind (x : m α) (next : α → m β) :
    (ExceptT.lift (x >>= next) : ExceptT Figure m β) =
      ExceptT.lift x >>= fun a => ExceptT.lift (next a) := by
  refine ExceptT.ext ?_
  simp only [ExceptT.run_lift, ExceptT.run_bind_lift, map_bind]

theorem tryPublish_lifted (frame : Frame) :
    Poller.tryPublish host.lifted frame = ExceptT.lift (Poller.tryPublish host frame) := by
  rw [Poller.tryPublish, Poller.tryPublish, lift_bind]
  refine congrArg (bind (host.lifted.publish frame)) (funext fun answer => ?_)
  cases answer with
  | error message => rfl
  | ok => exact (lift_pure ()).symm

theorem doEvent_lifted (e : PollEvent) :
    Poller.doEvent host.lifted e = ExceptT.lift (Poller.doEvent host e) := by
  cases e with
  | fetch => exact (lift_pure ()).symm
  | sleep seconds => rfl
  | publish frame => exact tryPublish_lifted host frame

theorem forM_doEvent_lifted (es : List PollEvent) :
    es.forM (Poller.doEvent host.lifted) = ExceptT.lift (es.forM (Poller.doEvent host)) := by
  induction es with
  | nil => exact (lift_pure ()).symm
  | cons e es ih =>
    show (Poller.doEvent host.lifted e >>= fun _ => es.forM (Poller.doEvent host.lifted)) =
      ExceptT.lift (Poller.doEvent host e >>= fun _ => es.forM (Poller.doEvent host))
    rw [doEvent_lifted, ih, lift_bind]

end Lifted

/-- Publishing a frame whose page can be drawn is the same with checks. -/
theorem Program.checkedPublish_eq {m : Type → Type} [Monad m] [LawfulMonad m] (host : Host m)
    (publisher : Publisher) {frame : Frame} (h : ∀ f ∈ frame.figures, f.Fits) :
    checkedPublish host publisher frame = ExceptT.lift (publish host publisher frame) := by
  have hpage (stamp : String) : frame.checkedPage publisher.style stamp =
      .ok (frame.page publisher.style stamp) := by
    rw [Frame.checkedPage_eq]
    exact outcome_eq_ok_iff.mpr ⟨h, rfl⟩
  rw [checkedPublish, publish, lift_bind]
  simp only [hpage]
  rfl

/-! ## Scripted worlds -/

namespace Script

variable {p : Poller} {s : Script} {f : Figure} {n : Nat}

/-- What the next `n` fetches give, each with the wall clock at its time. -/
def heard (s : Script) : Nat → List (Option Document × Int)
  | 0 => []
  | n + 1 => (s.outcomes.head?.join, s.clocks 0) :: s.next.heard n

theorem heard_congr {s s' : Script} (houtcomes : s'.outcomes = s.outcomes)
    (hclocks : s'.clocks = s.clocks) (n : Nat) : s'.heard n = s.heard n := by
  induction n generalizing s s' with
  | zero => rfl
  | succ n ih =>
    have hnext : s'.next.clocks = s.next.clocks :=
      congrArg (fun clocks i => clocks (i + 1)) hclocks
    rw [heard, heard, houtcomes, hclocks, ih (congrArg List.tail houtcomes) hnext]

theorem Logged.heard {es : List PollEvent} {s' : Script} (h : s.Logged es s') (n : Nat) :
    s'.heard n = s.heard n := heard_congr h.1 h.2.1 n

/-- A round is calculated once its fetch was answered and the clock was read. -/
theorem checkedTurn_eq (p : Poller) (s : Script) :
    (p.checkedTurn host.lifted).run.run s =
      (liftExcept (p.checkedRound s.outcomes.head?.join (s.clocks 0)) >>= fun round =>
        (round.1.events.forM (Poller.doEvent host.lifted) >>= fun _ => pure round.1.next :
          ExceptT Figure (StateM Script) (Termination ⊕ Poller))).run.run s.next := rfl

/-- A round that does not break off is one without checks. -/
theorem checkedTurn_run (h : ∀ f ∈ p.roundFigures s.outcomes.head?.join (s.clocks 0), f.Fits) :
    (p.checkedTurn host.lifted).run.run s =
      (.ok ((p.turn host).run s).1, ((p.turn host).run s).2) := by
  have hround := p.checkedRound_eq s.outcomes.head?.join (s.clocks 0)
  rw [outcome_eq_ok_iff.mpr ⟨h, rfl⟩] at hround
  rw [checkedTurn_eq, hround]
  simp only [forM_doEvent_lifted]
  rfl

theorem checkedTurn_breaks
    (h : outcome () (p.roundFigures s.outcomes.head?.join (s.clocks 0)) = .error f) :
    (p.checkedTurn host.lifted).run.run s = (.error f, s.next) := by
  have hround := p.checkedRound_eq s.outcomes.head?.join (s.clocks 0)
  rw [outcome_error h] at hround
  rw [checkedTurn_eq, hround]
  rfl

theorem checkedTurns_run (h : ∀ f ∈ p.figures (s.heard n), f.Fits) :
    (p.checkedTurns host.lifted n).run.run s =
      (.ok ((p.turns host n).run s).1, ((p.turns host n).run s).2) := by
  induction n generalizing p s with
  | zero => rfl
  | succ n ih =>
    obtain ⟨hround, hrest⟩ := List.forall_mem_append.mp h
    obtain ⟨s', hrun, hlogged⟩ := turn_run p s
    have hchecked := checkedTurn_run hround
    rw [hrun] at hchecked
    rw [Poller.checkedTurns, Poller.turns, ExceptT.run_bind, StateT.run_bind, StateT.run_bind,
      hchecked, hrun]
    cases hnext : (p.round s.outcomes.head?.join (s.clocks 0)).1.next with
    | inl t => rfl
    | inr p' =>
      rw [hnext] at hrest
      exact ih (hlogged.heard n ▸ hrest)

theorem checkedTurns_breaks (h : outcome () (p.figures (s.heard n)) = .error f) :
    ((p.checkedTurns host.lifted n).run.run s).1 = .error f := by
  induction n generalizing p s with
  | zero => cases h
  | succ n ih =>
    rw [heard, Poller.figures, outcome_append] at h
    rw [Poller.checkedTurns, ExceptT.run_bind, StateT.run_bind]
    cases hround : outcome () (p.roundFigures s.outcomes.head?.join (s.clocks 0)) with
    | error g =>
      rw [hround] at h
      obtain rfl : g = f := Except.error.inj h
      rw [checkedTurn_breaks hround]
      rfl
    | ok =>
      obtain ⟨s', hrun, hlogged⟩ := turn_run p s
      rw [hround] at h
      rw [checkedTurn_run (outcome_eq_ok_iff.mp hround).1, hrun]
      cases hnext : (p.round s.outcomes.head?.join (s.clocks 0)).1.next with
      | inl t =>
        rw [hnext] at h
        cases h
      | inr p' =>
        rw [hnext, ← hlogged.heard n] at h
        exact ih h

end Script

/-- Polling comes to what it does without checks unless one of the figures of its rounds fits no
word; then it breaks off at the first of these. If they all fit, the same is done. -/
theorem checked_polling (p : Poller) (s : Script) (n : Nat) :
    let checked := (p.checkedPoll Script.host.lifted n).run.run s
    let plain := (p.poll Script.host n).run s
    checked.1 = outcome plain.1 (p.figures (s.heard n)) ∧
      ((∀ f ∈ p.figures (s.heard n), f.Fits) → checked.2 = plain.2) := by
  intro checked plain
  obtain ⟨s', hrun, hlogged⟩ := Script.tryPublish_logged s .loading
  have hchecked : checked = (p.checkedTurns Script.host.lifted n).run.run s' := by
    dsimp only [checked]
    rw [Poller.checkedPoll, tryPublish_lifted, ExceptT.run_bind_lift, StateT.run_bind, hrun]
    rfl
  have hplain : plain = (p.turns Script.host n).run s' := by
    dsimp only [plain]
    rw [Poller.poll, StateT.run_bind, hrun]
    rfl
  rw [hchecked, hplain, ← hlogged.heard n]
  refine ⟨?_, fun h => by rw [Script.checkedTurns_run h]⟩
  cases h : outcome () (p.figures (s'.heard n)) with
  | error f =>
    rw [Script.checkedTurns_breaks h, outcome_error h]
  | ok =>
    have hfits := (outcome_eq_ok_iff.mp h).1
    rw [Script.checkedTurns_run hfits, outcome_eq_ok_iff.mpr ⟨hfits, rfl⟩]

/-! ## Moderate polling -/

/-- What was fetched, if anything was, is moderate at this time. -/
def ModerateFetch (fetched : Option Document) (clock : Int) : Prop :=
  ∀ doc, fetched = some doc → (Dashboard.Event.document doc clock).Moderate

namespace Poller

variable {p : Poller} {fetched : Option Document} {clock : Int}

theorem roundFigures_fit (hp : p.dashboard.state.Moderate) (h : ModerateFetch fetched clock) :
    ∀ f ∈ p.roundFigures fetched clock, f.Fits := by
  cases fetched with
  | none => exact nofun
  | some doc => exact Dashboard.figures_fit hp (h doc rfl)

/-- The frames among the events can be drawn. -/
def Drawable (es : List PollEvent) : Prop :=
  ∀ frame, .publish frame ∈ es → ∀ f ∈ frame.figures, f.Fits

theorem drawable_nil : Drawable [] := fun _ hmem => absurd hmem List.not_mem_nil

theorem Drawable.append {es es' : List PollEvent} (h : Drawable es) (h' : Drawable es') :
    Drawable (es ++ es') := by
  intro frame hframe
  obtain hframe | hframe := List.mem_append.mp hframe
  · exact h frame hframe
  · exact h' frame hframe

theorem Drawable.publish {es : List PollEvent} (h : Drawable es) {frame : Frame}
    (hframe : ∀ f ∈ frame.figures, f.Fits) : Drawable (.publish frame :: es) := by
  intro other hother
  obtain heq | hother := List.mem_cons.mp hother
  · obtain rfl := PollEvent.publish.inj heq
    exact hframe
  · exact h other hother

theorem Drawable.prepend {es : List PollEvent} (h : Drawable es) {e : PollEvent}
    (he : ∀ frame, .publish frame ≠ e) : Drawable (e :: es) := by
  intro frame hframe
  obtain heq | hframe := List.mem_cons.mp hframe
  · exact absurd heq (he frame)
  · exact h frame hframe

theorem Drawable.sleep {es : List PollEvent} (h : Drawable es) (seconds : Nat) :
    Drawable (.sleep seconds :: es) := h.prepend fun _ heq => PollEvent.noConfusion heq

theorem Drawable.fetch {es : List PollEvent} (h : Drawable es) : Drawable (.fetch :: es) :=
  h.prepend fun _ heq => PollEvent.noConfusion heq

/-- A moderate round publishes what can be drawn, and is followed by a moderate page. -/
theorem moderate_round (hp : p.dashboard.state.Moderate) (h : ModerateFetch fetched clock) :
    Drawable (p.round fetched clock).1.events ∧
      ∀ p', (p.round fetched clock).1.next = .inr p' → p'.dashboard.state.Moderate := by
  cases fetched with
  | none =>
    simp only [round, failRound]
    split
    · exact ⟨drawable_nil.sleep _, fun p' hnext => Sum.inr.inj hnext ▸ hp⟩
    · exact ⟨drawable_nil.publish (List.forall_mem_nil _),
        fun _ hnext => absurd hnext Sum.inl_ne_inr⟩
  | some doc =>
    have hafter := Dashboard.moderate_handle hp (h doc rfl)
    have hdrawn := Dashboard.renderFigures_fit hafter
    simp only [round, documentRound, roundAfter]
    split
    · exact ⟨(drawable_nil.sleep _).publish hdrawn,
        fun p' hnext => Sum.inr.inj hnext ▸ hafter⟩
    · exact ⟨drawable_nil.publish hdrawn, fun _ hnext => absurd hnext Sum.inl_ne_inr⟩
    · exact ⟨drawable_nil.publish (List.forall_mem_nil _),
        fun _ hnext => absurd hnext Sum.inl_ne_inr⟩

theorem figures_fit {outcomes : List (Option Document × Int)} (hp : p.dashboard.state.Moderate)
    (h : ∀ outcome ∈ outcomes, ModerateFetch outcome.1 outcome.2) :
    ∀ f ∈ p.figures outcomes, f.Fits := by
  induction outcomes generalizing p with
  | nil => exact nofun
  | cons first outcomes ih =>
    obtain ⟨hfirst, hrest⟩ := List.forall_mem_cons.mp h
    refine List.forall_mem_append.mpr ⟨roundFigures_fit hp hfirst, ?_⟩
    split
    · exact nofun
    · next p' hnext => exact ih ((moderate_round hp hfirst).2 p' hnext) hrest

theorem drawable_starve (p : Poller) : Drawable p.starve.events := by
  fun_induction starve p with
  | case1 p hmore rest ih => exact (ih.sleep _).fetch
  | case2 p hlast => exact (drawable_nil.publish (List.forall_mem_nil _)).fetch

theorem drawable_rounds {outcomes : List (Option Document × Int)}
    (hp : p.dashboard.state.Moderate)
    (h : ∀ outcome ∈ outcomes, ModerateFetch outcome.1 outcome.2) :
    Drawable (p.rounds outcomes).events := by
  induction outcomes generalizing p with
  | nil => exact drawable_starve p
  | cons first outcomes ih =>
    obtain ⟨hfirst, hrest⟩ := List.forall_mem_cons.mp h
    obtain ⟨hround, hmoderate⟩ := moderate_round hp hfirst
    simp only [rounds]
    split
    · exact hround.fetch
    · next p' hnext => exact (hround.append (ih (hmoderate p' hnext) hrest)).fetch

end Poller

/-- What is fetched and what the clock says is moderate. -/
structure Script.Moderate (s : Script) : Prop where
  fetches : ∀ fetched ∈ s.outcomes, ∀ clock, IsTime clock → ModerateFetch fetched clock
  clocks : ∀ i, IsTime (s.clocks i)

theorem Script.Moderate.heard {s : Script} (h : s.Moderate) (n : Nat) :
    ∀ outcome ∈ s.heard n, ModerateFetch outcome.1 outcome.2 := by
  induction n generalizing s with
  | zero => exact nofun
  | succ n ih =>
    refine List.forall_mem_cons.mpr ⟨fun doc hdoc => ?_, ih ⟨fun fetched hfetched => ?_, ?_⟩⟩
    · have hmem : some doc ∈ s.outcomes := List.mem_of_head? (Option.join_eq_some_iff.mp hdoc)
      exact h.fetches _ hmem _ (h.clocks 0) doc rfl
    · exact h.fetches fetched (List.mem_of_mem_tail hfetched)
    · exact fun i => h.clocks (i + 1)

/-- With moderate documents the program polls as it does without checks, whatever else the world
answers, and so it does against a list of outcomes. All frames can be drawn. -/
theorem moderate_polling (p : Poller) (hp : p.dashboard.state.Moderate) :
    (∀ (s : Script) (n : Nat), s.Moderate →
      (p.checkedPoll Script.host.lifted n).run.run s =
        (.ok ((p.poll Script.host n).run s).1, ((p.poll Script.host n).run s).2)) ∧
    ∀ outcomes : List (Option Document × Int),
      (∀ outcome ∈ outcomes, ModerateFetch outcome.1 outcome.2) →
      p.checkedRun outcomes = .ok (p.run outcomes) ∧ Poller.Drawable (p.run outcomes).events := by
  constructor
  · intro s n hs
    have hfits := Poller.figures_fit hp (hs.heard n)
    obtain ⟨hresult, hworld⟩ := checked_polling p s n
    exact Prod.ext (hresult.trans (outcome_eq_ok_iff.mpr ⟨hfits, rfl⟩)) (hworld hfits)
  · intro outcomes h
    rw [p.checkedRun_eq]
    exact ⟨outcome_eq_ok_iff.mpr ⟨Poller.figures_fit hp h, rfl⟩,
      (Poller.drawable_rounds hp h).publish (List.forall_mem_nil _)⟩

end BuildBoard
