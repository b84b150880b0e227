/-
Notifications that a document was saved, and hooks that fail. `Ran` is a notification as it is meant:
every hook is run for its URI, in order, each in the state that the one before it left. By
`notified_unless_unnamed` that is what happens, and each failure is logged once, unless a hook fails that
has no name to be reported by: there the notification ends with a failure of its own.
-/
import Shorthand.Server.Session

namespace Shorthand.Server

namespace SaveHook

variable {σ : Type} {hook : SaveHook σ} {hooks : List (SaveHook σ)} {uri : Text} {uris : List Text} {s s₁ s' : σ}
  {said : Except Failure Unit} {why : Failure} {log : Log}

/-! ## Turns -/

/-- The turn of a hook in a notification: what it says, and what it logs itself. -/
structure Turn (σ : Type) where
  hook : SaveHook σ
  said : Except Failure Unit
  log : Log

namespace Turn

def failed (turn : Turn σ) : Bool :=
  match turn.said with
  | .ok () => false
  | .error _ => true

/-- The hook has a name to be reported by, if it fails. -/
def Reportable (turn : Turn σ) : Prop := turn.failed = true → turn.hook.name.isSome = true

/-- The failure of a turn, under the name of its hook. -/
def report? (uri : Text) (turn : Turn σ) : Option LogEntry :=
  match turn.said, turn.hook.name with
  | .error why, some name => some (report name uri why)
  | _, _ => none

/-- What a turn adds to the log: what the hook logs itself, and its failure behind that. -/
def logged (uri : Text) (turn : Turn σ) : Log := turn.log ++ (turn.report? uri).toList

end Turn

/-- Hooks are run one after the other, each once and in the state that the one before it left. -/
inductive Ran (uri : Text) : List (SaveHook σ) → σ → List (Turn σ) → σ → Prop
  | nil (s : σ) : Ran uri [] s [] s
  | cons {hook hooks s said s₁ log turns s'} : hook.run uri s = (said, s₁, log) → Ran uri hooks s₁ turns s' →
      Ran uri (hook :: hooks) s (⟨hook, said, log⟩ :: turns) s'

variable {turns turns' : List (Turn σ)}

theorem exists_ran (uri : Text) (hooks : List (SaveHook σ)) (s : σ) : ∃ turns s', Ran uri hooks s turns s' := by
  induction hooks generalizing s with
  | nil => exact ⟨[], s, .nil s⟩
  | cons hook hooks ih =>
    obtain ⟨turns, s', hran⟩ := ih (hook.run uri s).2.1
    exact ⟨_, s', .cons rfl hran⟩

theorem Ran.unique {s'' : σ} (h : Ran uri hooks s turns s') (h' : Ran uri hooks s turns' s'') :
    turns = turns' ∧ s' = s'' := by
  induction h generalizing turns' with
  | nil s =>
    cases h'
    exact ⟨rfl, rfl⟩
  | cons hrun _ ih =>
    cases h' with
    | cons hrun' hran =>
      obtain ⟨rfl, rfl, rfl⟩ : _ ∧ _ ∧ _ := by simpa using hrun.symm.trans hrun'
      obtain ⟨rfl, rfl⟩ := ih hran
      exact ⟨rfl, rfl⟩

/-! ## One hook -/

theorem notify_of_reportable (hrun : hook.run uri s = (said, s₁, log)) (h : Turn.Reportable ⟨hook, said, log⟩) :
    hook.notify uri s = (.ok (), s₁, Turn.logged uri ⟨hook, said, log⟩) := by
  cases said with
  | ok _ => simp only [notify, hrun, Turn.logged, Turn.report?, Option.toList_none, List.append_nil]
  | error why =>
    obtain ⟨name, hname⟩ := Option.isSome_iff_exists.1 (h rfl)
    have hname : hook.name = some name := hname
    simp only [notify, hrun, hname, Turn.logged, Turn.report?, Option.toList_some]

theorem notify_of_unnamed (hrun : hook.run uri s = (.error why, s₁, log)) (hname : hook.name = none) :
    hook.notify uri s = (.error ⟨why⟩, s₁, log) := by
  simp only [notify, hrun, hname]

/-! ## One notification -/

theorem notifyAll_of_ok (h : hook.notify uri s = (.ok (), s₁, log)) (hooks : List (SaveHook σ)) :
    notifyAll uri (hook :: hooks) s =
      ((notifyAll uri hooks s₁).1, (notifyAll uri hooks s₁).2.1, log ++ (notifyAll uri hooks s₁).2.2) := by
  rw [notifyAll, h]

theorem notifyAll_of_error {why : Unreported} (h : hook.notify uri s = (.error why, s₁, log))
    (hooks : List (SaveHook σ)) : notifyAll uri (hook :: hooks) s = (.error why, s₁, log) := by
  rw [notifyAll, h]

/-- As long as every failure can be reported, a notification goes on. -/
theorem Ran.notifyAll_append (h : Ran uri hooks s turns s') (hnamed : ∀ turn ∈ turns, turn.Reportable)
    (others : List (SaveHook σ)) :
    notifyAll uri (hooks ++ others) s =
      ((notifyAll uri others s').1, (notifyAll uri others s').2.1,
        turns.flatMap (Turn.logged uri) ++ (notifyAll uri others s').2.2) := by
  induction h with
  | nil s => rfl
  | cons hrun _ ih =>
    obtain ⟨hfirst, hrest⟩ := List.forall_mem_cons.1 hnamed
    rw [List.cons_append, notifyAll_of_ok (notify_of_reportable hrun hfirst), ih hrest, List.flatMap_cons,
      List.append_assoc]

theorem Ran.notifyAll (h : Ran uri hooks s turns s') (hnamed : ∀ turn ∈ turns, turn.Reportable) :
    notifyAll uri hooks s = (.ok (), s', turns.flatMap (Turn.logged uri)) := by
  have happend := h.notifyAll_append hnamed []
  rwa [List.append_nil, SaveHook.notifyAll, List.append_nil] at happend

/-- A notification ends at a hook without a name that fails; those before it have been run. -/
inductive StopsAt (uri : Text) (hooks : List (SaveHook σ)) (s : σ) : List (Turn σ) → Failure → σ → Log → Prop
  | intro {passed hook others turns s₁ why s' log} : hooks = passed ++ hook :: others → Ran uri passed s turns s₁ →
      (∀ turn ∈ turns, turn.Reportable) → hook.name = none → hook.run uri s₁ = (.error why, s', log) →
      StopsAt uri hooks s turns why s' log

theorem StopsAt.notifyAll (h : StopsAt uri hooks s turns why s' log) :
    notifyAll uri hooks s = (.error ⟨why⟩, s', turns.flatMap (Turn.logged uri) ++ log) := by
  obtain ⟨rfl, hran, hnamed, hname, hrun⟩ := h
  rw [hran.notifyAll_append hnamed, notifyAll_of_error (notify_of_unnamed hrun hname)]

theorem StopsAt.cons {hook : SaveHook σ} {log₁ : Log} (hrun : hook.run uri s = (said, s₁, log₁))
    (hfirst : Turn.Reportable ⟨hook, said, log₁⟩) (h : StopsAt uri hooks s₁ turns why s' log) :
    StopsAt uri (hook :: hooks) s (⟨hook, said, log₁⟩ :: turns) why s' log := by
  obtain ⟨rfl, hran, hnamed, hname, hlast⟩ := h
  exact ⟨rfl, .cons hrun hran, List.forall_mem_cons.2 ⟨hfirst, hnamed⟩, hname, hlast⟩

/-- Either every failure of a notification can be reported, or there is a first one that cannot. -/
theorem Ran.reportable_or_stopsAt (h : Ran uri hooks s turns s') :
    (∀ turn ∈ turns, turn.Reportable) ∨ ∃ earlier why s'' log, StopsAt uri hooks s earlier why s'' log := by
  induction h with
  | nil s => exact .inl nofun
  | @cons hook hooks s said s₁ log turns s' hrun _ ih =>
    by_cases hfirst : Turn.Reportable ⟨hook, said, log⟩
    · rcases ih with hrest | ⟨earlier, why, s'', last, hstop⟩
      · exact .inl (List.forall_mem_cons.2 ⟨hfirst, hrest⟩)
      · exact .inr ⟨_, why, s'', last, hstop.cons hrun hfirst⟩
    · obtain ⟨hfailed, hunnamed⟩ := Classical.not_imp.1 hfirst
      have hname : hook.name = none := Option.not_isSome_iff_eq_none.1 hunnamed
      cases said with
      | ok _ => cases hfailed
      | error why => exact .inr ⟨[], why, s₁, log, ⟨rfl, .nil s, nofun, hname, hrun⟩⟩

/-! ## Errors in the log -/

def errors (log : Log) : Log := log.filter (·.kind == .error)

theorem errors_append (log log' : Log) : errors (log ++ log') = errors log ++ errors log' := List.filter_append ..

theorem errors_report? (uri : Text) (turn : Turn σ) :
    errors (turn.report? uri).toList = (turn.report? uri).toList := by
  rw [Turn.report?]
  split <;> rfl

theorem errors_cons (uri : Text) (turn : Turn σ) (turns : List (Turn σ)) :
    errors ((turn :: turns).flatMap (Turn.logged uri)) =
      errors turn.log ++ ((turn.report? uri).toList ++ errors (turns.flatMap (Turn.logged uri))) := by
  rw [List.flatMap_cons, errors_append, Turn.logged, errors_append, errors_report?, List.append_assoc]

theorem reports_cons (uri : Text) (turn : Turn σ) (turns : List (Turn σ)) :
    (turn :: turns).filterMap (Turn.report? uri) =
      (turn.report? uri).toList ++ turns.filterMap (Turn.report? uri) := by
  rw [List.filterMap_cons]
  cases turn.report? uri <;> rfl

theorem length_reports_le (uri : Text) (turns : List (Turn σ)) :
    (turns.filterMap (Turn.report? uri)).length ≤ (errors (turns.flatMap (Turn.logged uri))).length := by
  induction turns with
  | nil => exact Nat.le_refl 0
  | cons turn turns ih =>
    rw [reports_cons, errors_cons, List.length_append, List.length_append, List.length_append]
    omega

/-- The errors in the log are the failures that were reported, unless a hook logs an error itself. -/
theorem errors_eq_reports_iff (uri : Text) (turns : List (Turn σ)) :
    errors (turns.flatMap (Turn.logged uri)) = turns.filterMap (Turn.report? uri) ↔
      ∀ turn ∈ turns, errors turn.log = [] := by
  constructor
  · intro h
    have hlength := congrArg List.length h
    clear h
    induction turns with
    | nil => exact nofun
    | cons turn turns ih =>
      have hle := length_reports_le uri turns
      rw [reports_cons, errors_cons, List.length_append, List.length_append, List.length_append] at hlength
      exact List.forall_mem_cons.2 ⟨List.eq_nil_of_length_eq_zero (by omega), ih (by omega)⟩
  · intro h
    induction turns with
    | nil => rfl
    | cons turn turns ih =>
      obtain ⟨hfirst, hrest⟩ := List.forall_mem_cons.1 h
      rw [errors_cons, reports_cons, hfirst, ih hrest, List.nil_append]

/-! ## One notification after the other -/

/-- What becomes of notifications that come one after the other. -/
def notifyEach (hooks : List (SaveHook σ)) : List Text → σ → List (Except Unreported Unit × Log) × σ
  | [], s => ([], s)
  | uri :: uris, s =>
    let (result, s, log) := notifyAll uri hooks s
    let (answers, s) := notifyEach hooks uris s
    ((result, log) :: answers, s)

theorem notifyEach_cons (hooks : List (SaveHook σ)) (uri : Text) (uris : List Text) (s : σ) :
    notifyEach hooks (uri :: uris) s =
      (((notifyAll uri hooks s).1, (notifyAll uri hooks s).2.2) ::
        (notifyEach hooks uris (notifyAll uri hooks s).2.1).1, (notifyEach hooks uris (notifyAll uri hooks s).2.1).2) :=
  rfl

/-- The turns of one notification. -/
structure Round (σ : Type) where
  uri : Text
  turns : List (Turn σ)

/-- What a notification comes to when each of its failures is logged. -/
def Round.answer (round : Round σ) : Except Unreported Unit × Log :=
  (.ok (), round.turns.flatMap (Turn.logged round.uri))

/-- Every hook can be reported in every turn. -/
def Round.Reportable (round : Round σ) : Prop := ∀ turn ∈ round.turns, turn.Reportable

/-- Notifications of which each has every hook run. -/
inductive Rounds (hooks : List (SaveHook σ)) : List Text → σ → List (Round σ) → σ → Prop
  | nil (s : σ) : Rounds hooks [] s [] s
  | cons {uri uris s turns s₁ rounds s'} : Ran uri hooks s turns s₁ → Rounds hooks uris s₁ rounds s' →
      Rounds hooks (uri :: uris) s (⟨uri, turns⟩ :: rounds) s'

variable {rounds rounds' : List (Round σ)}

theorem exists_rounds (hooks : List (SaveHook σ)) (uris : List Text) (s : σ) :
    ∃ rounds s', Rounds hooks uris s rounds s' := by
  induction uris generalizing s with
  | nil => exact ⟨[], s, .nil s⟩
  | cons uri uris ih =>
    obtain ⟨turns, s₁, hran⟩ := exists_ran uri hooks s
    obtain ⟨rounds, s', hrounds⟩ := ih s₁
    exact ⟨_, s', .cons hran hrounds⟩

theorem Rounds.unique {s'' : σ} (h : Rounds hooks uris s rounds s') (h' : Rounds hooks uris s rounds' s'') :
    rounds = rounds' ∧ s' = s'' := by
  induction h generalizing rounds' with
  | nil s =>
    cases h'
    exact ⟨rfl, rfl⟩
  | cons hran _ ih =>
    cases h' with
    | cons hran' hrounds =>
      obtain ⟨rfl, rfl⟩ := hran.unique hran'
      obtain ⟨rfl, rfl⟩ := ih hrounds
      exact ⟨rfl, rfl⟩

theorem Rounds.notifyEach (h : Rounds hooks uris s rounds s') (hnamed : ∀ round ∈ rounds, round.Reportable) :
    notifyEach hooks uris s = (rounds.map Round.answer, s') := by
  induction h with
  | nil s => rfl
  | cons hran _ ih =>
    obtain ⟨hfirst, hrest⟩ := List.forall_mem_cons.1 hnamed
    rw [notifyEach_cons, hran.notifyAll hfirst, ih hrest, List.map_cons]
    rfl

theorem Rounds.reportable (h : Rounds hooks uris s rounds s')
    (heach : SaveHook.notifyEach hooks uris s = (rounds.map Round.answer, s')) :
    ∀ round ∈ rounds, round.Reportable := by
  induction h with
  | nil s => exact nofun
  | @cons uri uris s turns s₁ rounds s' hran hrounds ih =>
    rcases hran.reportable_or_stopsAt with hfirst | ⟨earlier, why, s'', log, hstop⟩
    · rw [notifyEach_cons, hran.notifyAll hfirst] at heach
      obtain ⟨hanswers, hstate⟩ := Prod.mk.inj heach
      exact List.forall_mem_cons.2 ⟨hfirst, ih (Prod.ext (List.cons.inj hanswers).2 hstate)⟩
    · rw [notifyEach_cons, hstop.notifyAll] at heach
      exact nomatch (Prod.mk.inj (List.cons.inj (Prod.mk.inj heach).1).1).1

/-! ## The hooks of a server -/

/-- The hook of a server has a name. -/
theorem reportable_saveHooks {host : Host} {session session' : Session} {turns : List (Turn Session)}
    (h : Ran uri (Session.saveHooks host) session turns session') : ∀ turn ∈ turns, turn.Reportable := by
  cases h with
  | cons hrun hrest =>
    cases hrest
    exact fun turn hturn => List.mem_singleton.1 hturn ▸ fun _ => rfl

/-- **Failures are reported, those of hooks without a name apart.** Notifications that come one after
the other have every hook run in turn and every failure logged, just when no hook fails that has no name;
a notification ends at the first such hook. The errors in the log are then one for each failure, in order,
unless a hook logs errors itself. The hook of a server has a name, so that its notifications never end
early. -/
theorem notified_unless_unnamed :
    (∀ (hooks : List (SaveHook σ)) (uris : List Text) (s : σ),
      (∃ rounds s', Rounds hooks uris s rounds s' ∧ notifyEach hooks uris s = (rounds.map Round.answer, s')) ↔
        ∀ rounds s', Rounds hooks uris s rounds s' → ∀ round ∈ rounds, round.Reportable) ∧
    (∀ (hooks : List (SaveHook σ)) (uri : Text) (s : σ),
      (∃ turns s', Ran uri hooks s turns s' ∧ (∀ turn ∈ turns, turn.Reportable) ∧
        notifyAll uri hooks s = (.ok (), s', turns.flatMap (Turn.logged uri))) ∨
      ∃ turns why s' log, StopsAt uri hooks s turns why s' log ∧
        notifyAll uri hooks s = (.error ⟨why⟩, s', turns.flatMap (Turn.logged uri) ++ log)) ∧
    (∀ (uri : Text) (turns : List (Turn σ)),
      errors (turns.flatMap (Turn.logged uri)) = turns.filterMap (Turn.report? uri) ↔
        ∀ turn ∈ turns, errors turn.log = []) ∧
    ∀ (host : Host) (uri : Text) (session : Session),
      ∃ turns session', Ran uri (Session.saveHooks host) session turns session' ∧
        session.save host uri = (.ok (), session', turns.flatMap (Turn.logged uri)) := by
  refine ⟨fun hooks uris s => ⟨?_, fun hnamed => ?_⟩, fun hooks uri s => ?_, errors_eq_reports_iff,
    fun host uri session => ?_⟩
  · rintro ⟨rounds, s', hrounds, heach⟩ rounds' s'' hrounds'
    obtain ⟨rfl, rfl⟩ := hrounds.unique hrounds'
    exact hrounds.reportable heach
  · obtain ⟨rounds, s', hrounds⟩ := exists_rounds hooks uris s
    exact ⟨rounds, s', hrounds, hrounds.notifyEach (hnamed rounds s' hrounds)⟩
  · obtain ⟨turns, s', hran⟩ := exists_ran uri hooks s
    rcases hran.reportable_or_stopsAt with hnamed | ⟨earlier, why, s'', log, hstop⟩
    · exact .inl ⟨turns, s', hran, hnamed, hran.notifyAll hnamed⟩
    · exact .inr ⟨earlier, why, s'', log, hstop, hstop.notifyAll⟩
  · obtain ⟨turns, session', hran⟩ := exists_ran uri (Session.saveHooks host) session
    exact ⟨turns, session', hran, hran.notifyAll (reportable_saveHooks hran)⟩

/-- A hook without a name fails in front of one that counts: the notification ends there, nothing is
logged, and the other one is not run. -/
theorem not_always_notified :
    let boom : Failure := ⟨"ValueError".toList, some "boom".toList⟩
    let unnamed : SaveHook Nat := ⟨none, fun _ n => (.error boom, n, [])⟩
    let counting : SaveHook Nat := ⟨some "counting".toList, fun _ n => (.ok (), n + 1, [])⟩
    let uri := "file:///a.html".toList
    notifyAll uri [unnamed, counting] 0 = (.error ⟨boom⟩, 0, []) ∧
      ¬ ∃ rounds n, Rounds [unnamed, counting] [uri] 0 rounds n ∧
        notifyEach [unnamed, counting] [uri] 0 = (rounds.map Round.answer, n) := by
  intro boom unnamed counting uri
  refine ⟨rfl, ?_⟩
  rintro ⟨rounds, n, hrounds, heach⟩
  cases hrounds with
  | cons hran hrest => exact nomatch (Prod.mk.inj (List.cons.inj (Prod.mk.inj heach).1).1).1

end SaveHook

end Shorthand.Server
