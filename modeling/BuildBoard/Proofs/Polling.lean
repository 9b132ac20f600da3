import BuildBoard.Config
import Mathlib.Data.Nat.Find
import Mathlib.Tactic.Common

/-!
# What a run of polling does

A run is judged fetch by fetch, from the history of fetches alone: how many failures in a row end
with this one, and what the dashboard makes of the document. The poller knows neither; it keeps a
counter and the dashboard of the moment.

Results:
1. `round_pollerAt`: a round of the poller does what the history says of its fetch.
2. `exists_end`: polling ends at the latest when too many fetches in a row have failed.
3. `poll_trace`: polling a scripted world does exactly what the history says, whichever pages the
   world refuses to publish, and the run against a list of outcomes does the same.
-/

namespace BuildBoard

/-! ## Histories of fetches -/

/-- All that a run depends on. After the listed outcomes every fetch fails. -/
structure History where
  settings : PollSettings
  dashboard : Dashboard
  outcomes : List (Option Document)
  /-- The wall clock at each fetch. -/
  clocks : Nat → Int

/-- What a fetch leads to. -/
inductive Fate where
  /-- A failure that is tried again. -/
  | retry
  /-- The failure that ends polling. -/
  | giveUp
  | live (d : Dashboard)
  | final (d : Dashboard)
  | refused (e : ReportError)

namespace Fate

/-- What is done after a fetch of this fate. -/
def events (settings : PollSettings) : Fate → List PollEvent
  | retry => [.sleep settings.firstLoadInterval]
  | giveUp => [.publish (.failed MonitorError.noData.message)]
  | live d => [.publish (.live d), .sleep settings.updateInterval]
  | final d => [.publish (.final d)]
  | refused e => [.publish (.failed e.message)]

/-- How polling ends with a fetch of this fate, if it does. -/
def termination? (settings : PollSettings) : Fate → Option Termination
  | retry | live _ => none
  | giveUp => some (.gaveUp settings.maxAttempts)
  | final _ => some .finished
  | refused e => some (.fatal e)

end Fate

namespace History

/-- The document that fetch `i` gives. -/
def fetched (h : History) (i : Nat) : Option Document := h.outcomes[i]?.join

/-- The failures in a row with which the first `n` fetches end. -/
def failuresIn (h : History) (n : Nat) : Nat :=
  (((List.range n).map h.fetched).reverse.takeWhile Option.isNone).length

/-- The dashboard after the first `n` fetches. -/
def dashboardAt (h : History) : Nat → Dashboard
  | 0 => h.dashboard
  | n + 1 =>
    match h.fetched n with
    | some doc => ((h.dashboardAt n).process doc (h.clocks n)).2
    | none => h.dashboardAt n

/-- What fetch `i` leads to. -/
def fate (h : History) (i : Nat) : Fate :=
  match h.fetched i with
  | none => if h.failuresIn (i + 1) = h.settings.maxAttempts then .giveUp else .retry
  | some doc =>
    match (h.dashboardAt i).process doc (h.clocks i) with
    | (.ok .proceed, d) => .live d
    | (.ok .stop, d) => .final d
    | (.error e, _) => .refused e

/-- Fetch `i` with what is done after it. -/
def eventsAt (h : History) (i : Nat) : List PollEvent := .fetch :: (h.fate i).events h.settings

def terminationAt? (h : History) (i : Nat) : Option Termination :=
  (h.fate i).termination? h.settings

/-- All that is done up to the end with fetch `n`. -/
def trace (h : History) (n : Nat) : List PollEvent :=
  .publish .loading :: (List.range (n + 1)).flatMap h.eventsAt

/-! ## The poller along a history -/

variable {h : History} {i n : Nat} {t : Termination}

theorem failuresIn_succ (h : History) (n : Nat) :
    h.failuresIn (n + 1) = if (h.fetched n).isNone then h.failuresIn n + 1 else 0 := by
  unfold failuresIn
  rw [List.range_succ, List.map_append, List.reverse_append]
  cases hf : h.fetched n <;> simp [hf]

theorem fetched_eq_none (hn : h.outcomes.length ≤ n) : h.fetched n = none := by
  unfold fetched
  rw [List.getElem?_eq_none hn, Option.join_none]

/-- The poller before fetch `i`. -/
def pollerAt (h : History) (i : Nat) : Poller := ⟨h.settings, h.dashboardAt i, h.failuresIn i⟩

/-- A round does what the history says of its fetch, as long as the failures so far are not too
many. -/
theorem round_pollerAt (hlt : h.failuresIn i < h.settings.maxAttempts) :
    ((h.pollerAt i).round (h.fetched i) (h.clocks i)).1 =
      ⟨(h.fate i).events h.settings,
        match h.terminationAt? i with
        | some t => .inl t
        | none => .inr (h.pollerAt (i + 1))⟩ := by
  have hsucc := failuresIn_succ h i
  unfold terminationAt? fate
  cases hf : h.fetched i with
  | none =>
    have hdash : h.dashboardAt (i + 1) = h.dashboardAt i := by simp only [dashboardAt, hf]
    rw [hf] at hsucc
    simp only [Option.isNone_none, ↓reduceIte] at hsucc
    simp only [Poller.round, Poller.failRound]
    -- the counter of the poller and the history agree on whether this failure is the last one
    by_cases hmax : h.failuresIn (i + 1) = h.settings.maxAttempts
    · have hlast : ¬ (h.pollerAt i).failures + 1 < (h.pollerAt i).settings.maxAttempts := by
        simp only [pollerAt]
        omega
      rw [if_neg hlast, if_pos hmax]
      simp only [pollerAt, ← hsucc, hmax]
      rfl
    · have hmore : (h.pollerAt i).failures + 1 < (h.pollerAt i).settings.maxAttempts := by
        simp only [pollerAt]
        omega
      rw [if_pos hmore, if_neg hmax]
      simp only [pollerAt, hsucc, hdash]
      rfl
  | some doc =>
    have hdash : h.dashboardAt (i + 1) = ((h.dashboardAt i).process doc (h.clocks i)).2 := by
      simp only [dashboardAt, hf]
    rw [hf] at hsucc
    simp only [Option.isNone_some, Bool.false_eq_true, ↓reduceIte] at hsucc
    simp only [Poller.round, Poller.documentRound, Poller.roundAfter, pollerAt, hdash, hsucc]
    rcases (h.dashboardAt i).process doc (h.clocks i) with ⟨result, d⟩
    cases result with
    | error e => rfl
    | ok verdict => cases verdict <;> rfl

/-- Before polling ends the failures in a row are never too many. -/
theorem failuresIn_lt (hpos : 0 < h.settings.maxAttempts) :
    ∀ n, (∀ i < n, h.terminationAt? i = none) → h.failuresIn n < h.settings.maxAttempts
  | 0, _ => hpos
  | n + 1, hgo => by
    have hlt := failuresIn_lt hpos n fun i hi => hgo i (by omega)
    have hfate := hgo n (Nat.lt_succ_self n)
    have hsucc := failuresIn_succ h n
    cases hf : h.fetched n with
    | none =>
      rw [hf] at hsucc
      simp only [Option.isNone_none, ↓reduceIte] at hsucc
      have hne : h.failuresIn (n + 1) ≠ h.settings.maxAttempts := by
        intro heq
        simp [terminationAt?, fate, hf, heq, Fate.termination?] at hfate
      omega
    | some doc =>
      rw [hf] at hsucc
      simpa [hsucc] using hpos

theorem le_failuresIn (h : History) (k : Nat) : k ≤ h.failuresIn (h.outcomes.length + k) := by
  induction k with
  | zero => exact Nat.zero_le _
  | succ k ih =>
    have hf : h.fetched (h.outcomes.length + k) = none := fetched_eq_none (Nat.le_add_right _ _)
    rw [← Nat.add_assoc, failuresIn_succ, hf]
    simpa using ih

/-- Polling ends: once the listed outcomes are used up it takes `maxAttempts` failures. -/
theorem exists_end (hpos : 0 < h.settings.maxAttempts) :
    ∃ n < h.outcomes.length + h.settings.maxAttempts, ∃ t,
      (∀ i < n, h.terminationAt? i = none) ∧ h.terminationAt? n = some t := by
  have hex : ∃ n < h.outcomes.length + h.settings.maxAttempts, (h.terminationAt? n).isSome := by
    -- otherwise the run would go on with more failures in a row than it can have
    by_contra hno
    push Not at hno
    have hlt := failuresIn_lt hpos (h.outcomes.length + h.settings.maxAttempts)
      fun i hi => by simpa using hno i hi
    have hle := le_failuresIn h h.settings.maxAttempts
    omega
  have hsome : ∃ n, (h.terminationAt? n).isSome := hex.imp fun _ hn => hn.2
  obtain ⟨m, hm, hmsome⟩ := hex
  refine ⟨Nat.find hsome, lt_of_le_of_lt (Nat.find_min' hsome hmsome) hm, ?_⟩
  obtain ⟨t, ht⟩ := Option.isSome_iff_exists.mp (Nat.find_spec hsome)
  exact ⟨t, fun i hi => by simpa using Nat.find_min hsome hi, ht⟩

end History

/-! ## Scripted worlds -/

theorem fetch_notMem_round (p : Poller) (fetched : Option Document) (clock : Int) :
    .fetch ∉ (p.round fetched clock).1.events := by
  cases fetched with
  | none =>
    simp only [Poller.round, Poller.failRound]
    split <;> simp
  | some doc =>
    simp only [Poller.round, Poller.documentRound, Poller.roundAfter]
    split <;> simp

/-- A world that answers from a script and writes down what is done to it. -/
structure Script where
  /-- What the fetches to come give. After these every fetch fails. -/
  outcomes : List (Option Document)
  clocks : Nat → Int
  /-- Whether the frames to come can be published. -/
  answers : Nat → Except String Unit
  events : List PollEvent

namespace Script

def log (s : Script) (e : PollEvent) : Script := { s with events := s.events ++ [e] }

def host : PollHost (StateM Script) where
  fetch := fun s => (s.outcomes.head?.join, { s.log .fetch with outcomes := s.outcomes.tail })
  clock := fun s => (s.clocks 0, { s with clocks := fun i => s.clocks (i + 1) })
  publish frame := fun s =>
    (s.answers 0, { s.log (.publish frame) with answers := fun i => s.answers (i + 1) })
  sleep seconds := fun s => ((), s.log (.sleep seconds))
  warn _ := pure ()

/-- Events are written down, and nothing else that polling asks for changes. -/
def Logged (s : Script) (es : List PollEvent) (s' : Script) : Prop :=
  s'.outcomes = s.outcomes ∧ s'.clocks = s.clocks ∧ s'.events = s.events ++ es

variable {h : History} {i n : Nat} {t : Termination}

/-- A frame is written down whether or not it could be published. -/
theorem tryPublish_logged (s : Script) (frame : Frame) :
    ∃ s', (Poller.tryPublish host frame).run s = ((), s') ∧ s.Logged [.publish frame] s' := by
  refine ⟨{ s.log (.publish frame) with answers := fun i => s.answers (i + 1) }, ?_, rfl, rfl, rfl⟩
  have hpublish : (host.publish frame).run s =
      (s.answers 0, { s.log (.publish frame) with answers := fun i => s.answers (i + 1) }) := rfl
  rw [Poller.tryPublish, StateT.run_bind, hpublish]
  cases s.answers 0 <;> rfl

theorem doEvent_logged (s : Script) {e : PollEvent} (he : e ≠ .fetch) :
    ∃ s', (Poller.doEvent host e).run s = ((), s') ∧ s.Logged [e] s' := by
  cases e with
  | fetch => exact absurd rfl he
  | sleep seconds => exact ⟨s.log (.sleep seconds), rfl, rfl, rfl, rfl⟩
  | publish frame => exact tryPublish_logged s frame

theorem forM_doEvent_logged (es : List PollEvent) (hes : .fetch ∉ es) (s : Script) :
    ∃ s', (es.forM (Poller.doEvent host)).run s = ((), s') ∧ s.Logged es s' := by
  induction es generalizing s with
  | nil => exact ⟨s, rfl, rfl, rfl, (List.append_nil _).symm⟩
  | cons e es ih =>
    obtain ⟨hne, hes⟩ := not_or.mp (mt List.mem_cons.mpr hes)
    obtain ⟨s₁, hrun₁, ho₁, hc₁, he₁⟩ := doEvent_logged s (Ne.symm hne)
    obtain ⟨s₂, hrun₂, ho₂, hc₂, he₂⟩ := ih hes s₁
    refine ⟨s₂, ?_, ho₂.trans ho₁, hc₂.trans hc₁, ?_⟩
    · show (Poller.doEvent host e >>= fun _ => es.forM (Poller.doEvent host)).run s = _
      rw [StateT.run_bind, hrun₁]
      exact hrun₂
    · rw [he₂, he₁, List.append_assoc]
      rfl

/-- The script once a fetch was answered and the clock was read. -/
def next (s : Script) : Script :=
  ⟨s.outcomes.tail, fun i => s.clocks (i + 1), s.answers, s.events ++ [.fetch]⟩

/-- A round of polling is a round of the poller with the next outcome and the next reading of the
clock. -/
theorem turn_run (p : Poller) (s : Script) :
    let round := (p.round s.outcomes.head?.join (s.clocks 0)).1
    ∃ s', (p.turn host).run s = (round.next, s') ∧ s.next.Logged round.events s' := by
  intro round
  obtain ⟨s', hrun, hlogged⟩ := forM_doEvent_logged round.events (fetch_notMem_round p _ _) s.next
  refine ⟨s', ?_, hlogged⟩
  show (round.events.forM (Poller.doEvent host) >>= fun _ => pure round.next).run s.next = _
  rw [StateT.run_bind, hrun]
  rfl

/-- The script before fetch `i` of a history. -/
def Before (h : History) (i : Nat) (s : Script) : Prop :=
  s.outcomes = h.outcomes.drop i ∧ s.clocks = fun j => h.clocks (i + j)

/-- A round of polling does what the history says of its fetch. -/
theorem turn_before {s : Script} (hlt : h.failuresIn i < h.settings.maxAttempts)
    (hs : Before h i s) :
    ∃ s', ((h.pollerAt i).turn host).run s =
        (match h.terminationAt? i with
          | some t => .inl t
          | none => .inr (h.pollerAt (i + 1)), s') ∧
      Before h (i + 1) s' ∧ s'.events = s.events ++ h.eventsAt i := by
  obtain ⟨ho, hc⟩ := hs
  obtain ⟨s', hrun, ho', hc', he'⟩ := turn_run (h.pollerAt i) s
  have hfetched : s.outcomes.head?.join = h.fetched i := by
    rw [ho, List.head?_drop]
    rfl
  have hclock : s.clocks 0 = h.clocks i := by rw [hc]; rfl
  rw [hfetched, hclock, History.round_pollerAt hlt] at hrun he'
  refine ⟨s', hrun, ⟨?_, ?_⟩, ?_⟩
  · rw [ho', next, ho, List.tail_drop]
  · rw [hc', next, hc]
    funext j
    rw [Nat.add_assoc, Nat.add_comm 1 j]
  · rw [he', next, List.append_assoc]
    rfl

/-- From fetch `i` on polling does what the history says of each fetch, up to the last one. -/
theorem turns_before (hpos : 0 < h.settings.maxAttempts)
    (hgo : ∀ j < n, h.terminationAt? j = none) (hend : h.terminationAt? n = some t) (m : Nat) :
    ∀ i, i + m = n → ∀ k s, Before h i s →
      ∃ s', ((h.pollerAt i).turns host (m + 1 + k)).run s = (some t, s') ∧
        s'.events = s.events ++ (List.range' i (m + 1)).flatMap h.eventsAt := by
  -- `m` rounds are left before the last one, which alone ends polling
  induction m with
  | zero =>
    intro i hi k s hs
    obtain rfl : i = n := hi
    obtain ⟨s', hrun, -, he⟩ := turn_before (History.failuresIn_lt hpos i hgo) hs
    rw [hend] at hrun
    refine ⟨s', ?_, by simpa using he⟩
    rw [Nat.zero_add, Nat.add_comm, Poller.turns, StateT.run_bind, hrun]
    rfl
  | succ m ih =>
    intro i hi k s hs
    obtain ⟨s₁, hrun₁, hs₁, he₁⟩ :=
      turn_before (History.failuresIn_lt hpos i fun j hj => hgo j (by omega)) hs
    obtain ⟨s₂, hrun₂, he₂⟩ := ih (i + 1) (by omega) k s₁ hs₁
    rw [hgo i (by omega)] at hrun₁
    refine ⟨s₂, ?_, ?_⟩
    · rw [show m + 1 + 1 + k = m + 1 + k + 1 by omega, Poller.turns, StateT.run_bind, hrun₁]
      exact hrun₂
    · rw [List.range'_succ, List.flatMap_cons, ← List.append_assoc, ← he₁, ← he₂]

end Script

/-! ## Runs against a list -/

namespace History

variable {h : History} {i n : Nat} {t : Termination}

/-- The outcomes with the clock readings that go with them. -/
def listed (h : History) : List (Option Document × Int) :=
  (List.range h.outcomes.length).map fun i => (h.fetched i, h.clocks i)

/-- The start of a run is a round with the first outcome, or with a failure if there is none. -/
theorem rounds_eq (p : Poller) (outcomes : List (Option Document × Int)) :
    p.rounds outcomes =
      let outcome := outcomes.head?.getD (none, 0)
      let round := p.round outcome.1 outcome.2
      match round.1.next with
      | .inl t => ⟨.fetch :: round.1.events, t, round.2⟩
      | .inr p =>
        let rest := p.rounds outcomes.tail
        { rest with events := .fetch :: round.1.events ++ rest.events } := by
  cases outcomes with
  | nil =>
    show p.starve = _
    rw [Poller.starve]
    simp only [List.head?_nil, Option.getD_none, Poller.round, Poller.failRound, List.tail_nil,
      Poller.rounds]
    split <;> rfl
  | cons outcome outcomes => rfl

/-- The clock does not matter when nothing was fetched. -/
theorem round_listed (p : Poller) (h : History) (i : Nat) :
    let outcome := (h.listed.drop i).head?.getD (none, 0)
    p.round outcome.1 outcome.2 = p.round (h.fetched i) (h.clocks i) := by
  intro outcome
  by_cases hi : i < h.outcomes.length
  · have : outcome = (h.fetched i, h.clocks i) := by simp [outcome, listed, List.head?_drop, hi]
    rw [this]
  · -- the clock that the history gives here is not the one of the list
    have : outcome = (none, 0) := by simp [outcome, listed, List.head?_drop, hi]
    rw [this, fetched_eq_none (by omega)]
    rfl

theorem rounds_pollerAt (hpos : 0 < h.settings.maxAttempts)
    (hgo : ∀ j < n, h.terminationAt? j = none) (hend : h.terminationAt? n = some t) (m : Nat) :
    ∀ i, i + m = n →
      ((h.pollerAt i).rounds (h.listed.drop i)).events =
          (List.range' i (m + 1)).flatMap h.eventsAt ∧
        ((h.pollerAt i).rounds (h.listed.drop i)).termination = t := by
  induction m with
  | zero =>
    intro i hi
    obtain rfl : i = n := hi
    have hround := round_pollerAt (failuresIn_lt hpos i hgo)
    rw [hend] at hround
    simp only [rounds_eq, round_listed, hround]
    exact ⟨by simp [eventsAt], trivial⟩
  | succ m ih =>
    intro i hi
    have hround := round_pollerAt (failuresIn_lt hpos i fun j hj => hgo j (by omega))
    rw [hgo i (by omega)] at hround
    obtain ⟨hevents, hterm⟩ := ih (i + 1) (by omega)
    rw [rounds_eq]
    simp only [round_listed, hround, List.tail_drop]
    refine ⟨?_, hterm⟩
    rw [hevents, List.range'_succ, List.flatMap_cons]
    rfl

end History

/-! ## The trace of a run -/

/-- Polling a world does what the history of its fetches says, up to the first fetch that ends it,
and nothing after that, whichever frames the world refuses to publish. The run against the list of
outcomes does the same. -/
theorem poll_trace (c : MonitorConfig) (d : Dashboard) (outcomes : List (Option Document))
    (clocks : Nat → Int) (answers : Nat → Except String Unit) :
    let h : History := ⟨c.pollSettings, d, outcomes, clocks⟩
    let p := Poller.new c.pollSettings d
    ∃ n < outcomes.length + c.pollSettings.maxAttempts, ∃ t,
      (∀ i < n, h.terminationAt? i = none) ∧ h.terminationAt? n = some t ∧
      (∀ k, let (ended, s) := (p.poll Script.host (n + 1 + k)).run ⟨outcomes, clocks, answers, []⟩
        ended = some t ∧ s.events = h.trace n) ∧
      (p.run h.listed).events = h.trace n ∧ (p.run h.listed).termination = t := by
  intro h p
  have hpos : 0 < h.settings.maxAttempts := by
    show 0 < max c.poll.maxLoadAttempts 1
    omega
  obtain ⟨n, hn, t, hgo, hend⟩ := History.exists_end hpos
  refine ⟨n, hn, t, hgo, hend, fun k => ?_, ?_⟩
  · obtain ⟨s₁, hrun₁, ho₁, hc₁, he₁⟩ :=
      Script.tryPublish_logged ⟨outcomes, clocks, answers, []⟩ .loading
    have hbefore : Script.Before h 0 s₁ := ⟨ho₁, by simpa using hc₁⟩
    obtain ⟨s₂, hrun₂, he₂⟩ :=
      Script.turns_before hpos hgo hend n 0 (Nat.zero_add n) k s₁ hbefore
    have hrun : (p.poll Script.host (n + 1 + k)).run ⟨outcomes, clocks, answers, []⟩ =
        (some t, s₂) := by
      rw [Poller.poll, StateT.run_bind, hrun₁]
      exact hrun₂
    rw [hrun]
    refine ⟨rfl, ?_⟩
    rw [he₂, he₁, ← List.range_eq_range']
    rfl
  · obtain ⟨hevents, hterm⟩ := History.rounds_pollerAt hpos hgo hend n 0 (Nat.zero_add n)
    refine ⟨?_, hterm⟩
    show .publish .loading :: ((h.pollerAt 0).rounds (h.listed.drop 0)).events = _
    rw [hevents, ← List.range_eq_range']
    rfl

end BuildBoard
