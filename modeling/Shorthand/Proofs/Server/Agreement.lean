/-
The two answers about an abbreviation: its item in a completion, and the edit that
expands it. Each is described by what it takes to get it (`ownItem_iff`,
`edit?_eq_some_iff`), and `own_item_agrees` says that they are one edit wherever there
are both, and why there may be no item where there is an edit.
-/
import Shorthand.Proofs.Completion.Target
import Shorthand.Server.Session

namespace Shorthand.Server

open Abbreviation Completion Expansion

/-- What is to be expanded before a position of a source: `document` is the source as it is
read, and `t` the abbreviation that stands there with its configuration. -/
structure Finds (host : Host) (s : Session) (source : Source) (position : Position)
    (document : Document) (t : Target) : Prop where
  dialect : dialectOf s.settings source = .ok (some t.config.dialect)
  read : readDocument host source = .ok document
  found : extract host.scan document position t.config.dialect = .ok (some t.extracted)
  configured : Config.assemble t.config.dialect (request s.settings t.extracted.filters)
    s.store.snapshot = .ok t.config

/-- The abbreviation before a position of a source, and what it expands to. -/
structure Expands (host : Host) (s : Session) (source : Source) (position : Position)
    (document : Document) (t : Target) (expanded : Text) : Prop
    extends Finds host s source position document t where
  expansion : t.config.expand host.engine t.extracted.abbreviation = some expanded
  nonempty : expanded ≠ []

/-- The edit that takes an expansion over. -/
def expandedEdit (t : Target) (expanded : Text) : Edit :=
  ⟨t.extracted.range, insertText t.config.family expanded⟩

/-- An item at a cursor that stands for the typed abbreviation: the candidate it is made
from has the rank 0. -/
def OwnItem (host : Host) (s : Session) (cursor : Cursor) (item : Item) : Prop :=
  ∃ t, s.completionTarget host cursor = .ok (some t) ∧
    ∃ o ∈ candidates host.engine.expander s.settings t, o.rank = 0 ∧ item = Item.ofCandidate s.settings o

variable {host : Host} {s : Session} {source : Source} {cursor : Cursor} {position : Position}

theorem mapError_eq_ok_iff {ε ε' α : Type} {f : ε → ε'} {result : Except ε α} {a : α} :
    result.mapError f = .ok a ↔ result = .ok a := by
  cases result <;> simp [Except.mapError]

theorem bind_eq_ok_iff {ε α β : Type} {result : Except ε α} {next : α → Except ε β} {b : β} :
    result >>= next = .ok b ↔ ∃ a, result = .ok a ∧ next a = .ok b := by
  cases result <;> simp [bind, Except.bind]

theorem Finds.target {document : Document} {t : Target} (h : Finds host s source position document t) :
    target host.scan document position t.config.dialect s.settings s.store.snapshot = .ok (some t) :=
  target_eq_some_iff.2 ⟨h.found, h.configured⟩

theorem Finds.family {document : Document} {t : Target} (h : Finds host s source position document t) :
    t.config.family = Dialect.family t.config.dialect :=
  family_of_assemble h.configured

theorem finds_of_target {document : Document} {dialect : Text} {t : Target}
    (hd : dialectOf s.settings source = .ok (some dialect)) (hr : readDocument host source = .ok document)
    (ht : Completion.target host.scan document position dialect s.settings s.store.snapshot =
      .ok (some t)) : Finds host s source position document t := by
  obtain ⟨hx, hc⟩ := target_eq_some_iff.1 ht
  obtain rfl := dialect_of_assemble hc
  exact ⟨hd, hr, hx, hc⟩

theorem Expands.expansion?_eq {document : Document} {t : Target} {expanded : Text}
    (h : Expands host s source position document t expanded) :
    expansion? host.engine.expander t.config t.extracted.abbreviation = some expanded :=
  expansion?_eq_some_iff.2 ⟨h.expansion, h.nonempty⟩

/-! ## The edit -/

theorem expansionTarget_eq_some_iff {t : Target} :
    expansionTarget host s.settings s.store.snapshot source position = .ok (some t) ↔
      ∃ document, Finds host s source position document t := by
  rw [expansionTarget, bind_eq_ok_iff]
  constructor
  · rintro ⟨dialect?, hd, h⟩
    cases dialect? with
    | none => cases h
    | some dialect =>
      obtain ⟨document, hr, h⟩ := bind_eq_ok_iff.1 h
      exact ⟨document, finds_of_target hd hr (mapError_eq_ok_iff.1 h)⟩
  · rintro ⟨document, h⟩
    exact ⟨_, h.dialect, bind_eq_ok_iff.2 ⟨document, h.read, mapError_eq_ok_iff.2 h.target⟩⟩

theorem edit?_eq_some_iff {edit : Edit} :
    (s.edit? host source position).1 = .ok (some edit) ↔
      ∃ document t expanded, Expands host s source position document t expanded ∧
        edit = expandedEdit t expanded := by
  rw [Session.edit?]
  constructor
  · intro h
    cases ht : expansionTarget host s.settings s.store.snapshot source position with
    | error why =>
      rw [ht] at h
      cases h
    | ok found =>
      simp only [ht, Except.ok.injEq] at h
      cases found with
      | none => cases h
      | some t =>
        obtain ⟨document, hfinds⟩ := expansionTarget_eq_some_iff.1 ht
        rw [editFor, Option.map_eq_some_iff] at h
        obtain ⟨expanded, hx, rfl⟩ := h
        obtain ⟨hexpand, hne⟩ := expansion?_eq_some_iff.1 hx
        refine ⟨document, t, expanded, ⟨hfinds, hexpand, hne⟩, ?_⟩
        rw [expandedEdit, hfinds.family]
  · rintro ⟨document, t, expanded, hx, rfl⟩
    rw [expansionTarget_eq_some_iff.2 ⟨document, hx.toFinds⟩]
    simp only [editFor, hx.expansion?_eq, Option.map_some, expandedEdit, hx.family]

/-! ## The item -/

theorem completionTarget_eq {document : Document} {dialect : Text}
    (hsource : s.source cursor.uri = .ok source)
    (hd : dialectOf s.settings source = .ok (some dialect)) (hr : readDocument host source = .ok document) :
    s.completionTarget host cursor =
      (Completion.completionTarget host.scan document cursor.position dialect s.settings
        s.store.snapshot).mapError .completion := by
  simp only [Session.completionTarget, Server.completionTarget, bind, Except.bind, hsource, hd, hr]
  cases hon : s.settings.expansionEnabled with
  | false => simp [Completion.completionTarget, hon, Except.mapError, pure, Except.pure]
  | true => simp

theorem completionTarget_eq_some {t : Target} (hsource : s.source cursor.uri = .ok source)
    (h : s.completionTarget host cursor = .ok (some t)) :
    ∃ document, Finds host s source cursor.position document t ∧
      s.settings.expansionEnabled = true ∧ ¬ OpensTag document cursor.position t := by
  obtain ⟨source', hsource', h⟩ := bind_eq_ok_iff.1 h
  obtain rfl : source = source' := Except.ok.inj (hsource.symm.trans hsource')
  obtain ⟨dialect?, hd, h⟩ := bind_eq_ok_iff.1 h
  cases dialect? with
  | none => cases h
  | some dialect =>
    cases hon : s.settings.expansionEnabled with
    | false =>
      simp only [hon] at h
      cases h
    | true =>
      simp only [hon] at h
      obtain ⟨document, hr, h⟩ := bind_eq_ok_iff.1 h
      obtain ⟨-, hopen, ht⟩ := completionTarget_eq_some_iff.1 (mapError_eq_ok_iff.1 h)
      exact ⟨document, finds_of_target hd hr ht, rfl, hopen⟩

theorem completionTarget_of_finds {document : Document} {t : Target}
    (hsource : s.source cursor.uri = .ok source) (hf : Finds host s source cursor.position document t) :
    (s.settings.expansionEnabled = true ∧ ¬ OpensTag document cursor.position t ∧
      s.completionTarget host cursor = .ok (some t)) ∨
    ((s.settings.expansionEnabled = false ∨ OpensTag document cursor.position t) ∧
      s.completionTarget host cursor = .ok none) := by
  rw [completionTarget_eq hsource hf.dialect hf.read, mapError_eq_ok_iff, mapError_eq_ok_iff]
  by_cases hheld : s.settings.expansionEnabled = false ∨ OpensTag document cursor.position t
  · exact .inr ⟨hheld, completionTarget_eq_none hf.target hheld⟩
  · rw [not_or, Bool.not_eq_false] at hheld
    obtain ⟨hon, hopen⟩ := hheld
    exact .inl ⟨hon, hopen, completionTarget_eq_some_iff.2 ⟨hon, hopen, hf.target⟩⟩

/-- What stands for the typed abbreviation takes its expansion over, if that is no noise. -/
theorem ownItem_iff {t : Target} {item : Item} (ht : s.completionTarget host cursor = .ok (some t)) :
    OwnItem host s cursor item ↔ ∃ o, ownCandidate host.engine.expander t = some o ∧
      item = Item.ofCandidate s.settings o := by
  rw [OwnItem]
  constructor
  · rintro ⟨t', ht', o, ho, hrank, rfl⟩
    rw [ht, Except.ok.injEq, Option.some.injEq] at ht'
    subst ht'
    exact ⟨o, mem_candidates_rank_zero.1 ⟨ho, hrank⟩, rfl⟩
  · rintro ⟨o, ho, rfl⟩
    obtain ⟨hmem, hrank⟩ := (@mem_candidates_rank_zero _ s.settings t o).2 ho
    exact ⟨t, ht, o, hmem, hrank, rfl⟩

theorem OwnItem.mem_items {item : Item} (h : OwnItem host s cursor item) :
    ∃ items, (s.items host cursor).1 = .ok items ∧ item ∈ items := by
  obtain ⟨t, ht, o, ho, -, rfl⟩ := h
  exact ⟨itemsFor host s.settings (some t), by rw [Session.items, ht], List.mem_map_of_mem ho⟩

/-- **The item of the typed abbreviation is its expansion.** Where a completion has an item
for the typed abbreviation, the expansion at the same place is the edit of that item. Where
there is an expansion there is a completion, and it has an item with that edit, unless
expansion is switched off, or the name of a tag is being opened, or the expansion is noise.
The engine may expand any abbreviation to anything, and may fail to expand it. -/
theorem own_item_agrees (hsource : s.source cursor.uri = .ok source) :
    (∀ item, OwnItem host s cursor item →
      (s.edit? host source cursor.position).1 = .ok (some item.edit)) ∧
    ∀ edit, (s.edit? host source cursor.position).1 = .ok (some edit) →
      ∃ document t expanded items, Expands host s source cursor.position document t expanded ∧
        edit = expandedEdit t expanded ∧ (s.items host cursor).1 = .ok items ∧
        ((∃ item ∈ items, OwnItem host s cursor item ∧ item.edit = edit) ∨
          s.settings.expansionEnabled = false ∨ OpensTag document cursor.position t ∨
          isNoise t.config t.extracted.abbreviation expanded = true) := by
  constructor
  · intro item hown
    obtain ⟨t, ht, -⟩ := id hown
    obtain ⟨o, ho, rfl⟩ := (ownItem_iff ht).1 hown
    obtain ⟨document, hfinds, -, -⟩ := completionTarget_eq_some hsource ht
    obtain ⟨expanded, hx, -, hrange, hinsert⟩ := edit_ownCandidate ho
    obtain ⟨hexpand, hne⟩ := expansion?_eq_some_iff.1 hx
    have hedit : (Item.ofCandidate s.settings o).edit = expandedEdit t expanded := by
      rw [Item.ofCandidate, editOf, hrange, hinsert, expandedEdit]
    exact edit?_eq_some_iff.2 ⟨document, t, expanded, ⟨hfinds, hexpand, hne⟩, hedit⟩
  · intro edit hedit
    obtain ⟨document, t, expanded, hx, rfl⟩ := edit?_eq_some_iff.1 hedit
    refine ⟨document, t, expanded, ?_⟩
    obtain ⟨hon, hopen, ht⟩ | ⟨hheld, hnone⟩ := completionTarget_of_finds hsource hx.toFinds
    · cases hnoise : isNoise t.config t.extracted.abbreviation expanded with
      | true =>
        have hitems : (s.items host cursor).1 = .ok (itemsFor host s.settings (some t)) := by
          rw [Session.items, ht]
        exact ⟨_, hx, rfl, hitems, .inr (.inr (.inr rfl))⟩
      | false =>
        obtain ⟨o, ho, hrange, hinsert⟩ := exists_ownCandidate hx.expansion?_eq hnoise
        have hown : OwnItem host s cursor (Item.ofCandidate s.settings o) := (ownItem_iff ht).2 ⟨o, ho, rfl⟩
        obtain ⟨items, hitems, hmem⟩ := hown.mem_items
        refine ⟨items, hx, rfl, hitems, .inl ⟨_, hmem, hown, ?_⟩⟩
        rw [Item.ofCandidate, editOf, hrange, hinsert, expandedEdit]
    · have hitems : (s.items host cursor).1 = .ok [] := by
        rw [Session.items, hnone]
        rfl
      exact ⟨_, hx, rfl, hitems, .inr (hheld.imp_right .inl)⟩

/-- A margin in a stylesheet. -/
theorem own_item_agrees_margin :
    let document : Document := ⟨"file:///a.css".toList, some "css".toList, "m10".toList⟩
    let engine : Engine := fun t _ => if t = "m10".toList then some "margin: 10px;".toList else none
    let host : Host := ⟨.standard, ⟨⟨{}⟩, ⟨.single, []⟩, []⟩, Scan.start?, engine⟩
    let s : Session := { Session.start with
      workspace := some ⟨.ofList [(document.uri, document)]⟩ }
    let edit : Edit := ⟨⟨⟨0, 0⟩, ⟨0, 3⟩⟩, "margin: 10px;".toList⟩
    let cursor : Cursor := ⟨document.uri, ⟨0, 3⟩⟩
    ∃ item, OwnItem host s cursor item ∧ item.edit = edit ∧
      (s.edit? host (.opened document) cursor.position).1 = .ok (some edit) := by
  intro document engine host s edit cursor
  have hsource : s.source cursor.uri = .ok (.opened document) := by decide +kernel
  have hfound : extract host.scan document ⟨0, 3⟩ "css".toList =
      .ok (some ⟨"m10".toList, [], ⟨⟨0, 0⟩, ⟨0, 3⟩⟩⟩) := by decide
  cases hc : Config.assemble "css".toList (request s.settings []) s.store.snapshot with
  | error why =>
    have hconfig : (Config.assemble "css".toList (request s.settings []) s.store.snapshot).toOption.isSome := by
      rfl
    rw [hc] at hconfig
    cases hconfig
  | ok config =>
    have hdialect := dialect_of_assemble hc
    have hfamily := family_of_assemble hc
    let t : Target := ⟨⟨"m10".toList, [], ⟨⟨0, 0⟩, ⟨0, 3⟩⟩⟩, config⟩
    have hfinds : Finds host s (.opened document) cursor.position document t := by
      refine ⟨?_, rfl, ?_, ?_⟩ <;> simp only [t, hdialect]
      · rfl
      · exact hfound
      · exact hc
    have hnoise : isNoise config "m10".toList "margin: 10px;".toList = false := by
      rw [isNoise, hfamily, hdialect]
      show isStylesheetNoise "css".toList "m10".toList "margin: 10px;".toList = false
      decide
    have hexpansion : expansion? engine.expander config "m10".toList = some "margin: 10px;".toList := by
      rw [expansion?_eq_some_iff, Engine.expander, Config.expand, Config.engineText, hfamily]
      decide
    obtain ⟨o, ho, hrange, hinsert⟩ := exists_ownCandidate (t := t) hexpansion hnoise
    have ht : s.completionTarget host cursor = .ok (some t) := by
      obtain ⟨-, -, ht⟩ | ⟨hoff | ⟨hmarkup, -⟩, -⟩ := completionTarget_of_finds hsource hfinds
      · exact ht
      · cases hoff
      · rw [hfamily] at hmarkup
        cases hmarkup
    have hown := (ownItem_iff ht).2 ⟨o, ho, rfl⟩
    have hedit : editOf o = edit := by
      have hescaped : insertText .stylesheet "margin: 10px;".toList = "margin: 10px;".toList := by
        decide
      rw [editOf, hrange, hinsert, hfamily]
      exact congrArg _ hescaped
    refine ⟨_, hown, hedit, ?_⟩
    rw [← hedit]
    exact (own_item_agrees hsource).1 _ hown

end Shorthand.Server
