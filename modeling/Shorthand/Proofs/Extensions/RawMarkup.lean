/-
Snippets of raw markup. They are put in braces to be abbreviations; the braces are put around the
text as it is, and a text block ends at the first brace that is not paired within it.

So the stored snippet is one block just when the braces of the markup pair up, those behind a
backslash aside, and `OneNode` tells when it is one node (`normalizeSnippets_oneNode_iff`). Markup
with a single `}` is stored as a text that is no abbreviation (`normalizeSnippets_not_always`).
-/
import Shorthand.Extensions.Load
import Shorthand.Proofs.Abbreviation.EscapePair
import Shorthand.Proofs.Abbreviation.Joining
import Shorthand.Proofs.Data.LastEntry

namespace Shorthand

namespace Abbreviation

variable {t rest front : Text}

/-! ## Texts in braces -/

/-- The text between braces. -/
def braced (t : Text) : Text := '{' :: (t ++ ['}'])

theorem NodePart.of_opening_brace (h : NodePart ('{' :: rest)) :
    ∃ inside, rest = inside ++ ['}'] ∧ Bracket.curly.Body inside := by
  cases h with
  | name hc => exact absurd hc (by decide)
  | sign hc => exact absurd hc (by decide)
  | text hbody => exact ⟨_, rfl, hbody⟩

theorem NodePart.of_closing_brace (h : NodePart (front ++ ['}'])) (hescape : front ≠ ['\\']) :
    ∃ inside, front = '{' :: inside ∧ Bracket.curly.Body inside := by
  generalize hpart : front ++ ['}'] = part at h
  have hlast : part.getLast? = some '}' := by rw [← hpart, List.getLast?_concat]
  cases h with
  | name hc =>
    cases hlast
    exact absurd hc (by decide)
  | sign hc =>
    cases hlast
    exact absurd hc (by decide)
  | escaped c =>
    cases hlast
    have heq : front ++ ['}'] = ['\\'] ++ ['}'] := hpart
    exact absurd (List.append_cancel_right heq) hescape
  | attributes =>
    rw [← List.cons_append, List.getLast?_concat] at hlast
    cases hlast
  | text hbody =>
    rw [← List.cons_append] at hpart
    exact ⟨_, List.append_cancel_right hpart, hbody⟩

/-- A text of parts that begins with a brace begins with a block. -/
theorem HasParts.of_opening_brace (h : HasParts ('{' :: rest)) :
    ∃ inside left, rest = inside ++ '}' :: left ∧ Bracket.curly.Body inside ∧ HasParts left := by
  obtain ⟨parts, hparts, htext⟩ := h
  obtain ⟨part, more, rfl⟩ : ∃ part more, parts = part :: more := by
    refine List.exists_cons_of_ne_nil ?_
    rintro rfl
    cases htext
  obtain ⟨hpart, hmore⟩ := List.forall_mem_cons.1 hparts
  obtain ⟨c, behind, rfl, -⟩ := hpart.head
  obtain ⟨rfl, rfl⟩ := List.cons.inj htext
  obtain ⟨inside, rfl, hbody⟩ := hpart.of_opening_brace
  exact ⟨inside, more.flatten, by simp, hbody, more, hmore, rfl⟩

/-- A text of parts that ends with a brace ends with a block. A backslash before the brace would
take it away. -/
theorem HasParts.of_closing_brace (h : HasParts (front ++ ['}'])) (hescape : front.getLast? ≠ some '\\') :
    ∃ left inside, front = left ++ '{' :: inside ∧ HasParts left ∧ Bracket.curly.Body inside := by
  obtain ⟨parts, hparts, htext⟩ := h
  rcases List.eq_nil_or_concat' parts with rfl | ⟨left, last, rfl⟩
  · cases front <;> cases htext
  obtain ⟨hleft, hlast⟩ := List.forall_mem_append.1 hparts
  have hlast := hlast last List.mem_cons_self
  obtain ⟨before, d, rfl⟩ : ∃ before d, last = before ++ [d] := by
    obtain ⟨d, more, rfl, -⟩ := hlast.head
    exact ⟨_, _, (List.dropLast_append_getLast (List.cons_ne_nil d more)).symm⟩
  have heq : front ++ ['}'] = (left.flatten ++ before) ++ [d] := by simpa using htext
  obtain ⟨rfl, hd⟩ := List.append_inj' heq rfl
  cases hd
  have hbefore : before ≠ ['\\'] := by
    rintro rfl
    exact hescape List.getLast?_concat
  obtain ⟨inside, rfl, hbody⟩ := hlast.of_closing_brace hbefore
  exact ⟨left.flatten, inside, rfl, ⟨left, hleft, rfl⟩, hbody⟩

/-- What may stand in braces so that they begin and end one node: the braces are those of one block,
or they are the first of a block and the last of another, and there are only parts of a node in
between. -/
inductive OneNode : Text → Prop
  | block {t : Text} : Bracket.curly.Body t → OneNode t
  | blocks {first between last : Text} :
    Bracket.curly.Body first → HasParts between → Bracket.curly.Body last →
      OneNode (first ++ '}' :: (between ++ '{' :: last))

theorem OneNode.hasParts (h : OneNode t) : HasParts (braced t) := by
  cases h with
  | block hbody => exact (NodePart.text hbody).hasParts
  | @blocks first between last hfirst hbetween hlast =>
    have hparts := (NodePart.text hfirst).hasParts.append (hbetween.append (NodePart.text hlast).hasParts)
    simpa [braced] using hparts

theorem hasParts_braced_iff (hescape : t.getLast? ≠ some '\\') : HasParts (braced t) ↔ OneNode t := by
  refine ⟨fun h => ?_, OneNode.hasParts⟩
  obtain ⟨first, left, htext, hfirst, hleft⟩ := HasParts.of_opening_brace h
  rcases List.eq_nil_or_concat' left with rfl | ⟨front, d, rfl⟩
  · obtain rfl := List.append_cancel_right htext
    exact .block hfirst
  · have heq : t ++ ['}'] = (first ++ '}' :: front) ++ [d] := by simpa using htext
    obtain ⟨rfl, hd⟩ := List.append_inj' heq rfl
    cases hd
    have hfront : front.getLast? ≠ some '\\' := by
      intro hfront
      exact hescape (List.mem_getLast?_append_of_mem_getLast? (List.mem_getLast?_cons hfront))
    obtain ⟨between, last, rfl, hbetween, hlast⟩ := hleft.of_closing_brace hfront
    exact .blocks hfirst hbetween hlast

/-- The brace that closes the block is the last one just when the braces in it pair up. -/
theorem closing?_braced_iff :
    Bracket.curly.closing? (braced t) = some (t.length + 1) ↔ Bracket.curly.Body t := by
  rw [braced]
  constructor
  · intro h
    obtain ⟨inside, rest, heq, hbody, hlength⟩ := Bracket.closing?_eq_some_iff.1 h
    obtain ⟨rfl, -⟩ := List.append_inj heq (Nat.succ.inj hlength)
    exact hbody
  · exact fun hbody => Bracket.closing?_body hbody []

/-- Text in which no brace stands on its own may stand in braces. -/
theorem body_of_no_braces (hopening : .bare '{' ∉ signs t) (hclosing : .bare '}' ∉ signs t)
    (hend : .bare '\\' ∉ signs t) : Bracket.curly.Body t := by
  induction t using sign_induction with
  | nil => exact .nil
  | last => exact absurd List.mem_cons_self hend
  | bare c rest hc ih =>
    rw [signs_cons hc, List.mem_cons, not_or] at hopening hclosing hend
    have hplain : Bracket.curly.IsPlain c :=
      ⟨hc, rfl, fun h => hopening.1 (congrArg Sign.bare h.symm), fun h => hclosing.1 (congrArg Sign.bare h.symm)⟩
    exact .plain hplain (ih hopening.2 hclosing.2 hend.2)
  | escaped c rest ih =>
    rw [signs, List.mem_cons, not_or] at hopening hclosing hend
    exact .escape c (ih hopening.2 hclosing.2 hend.2)

/-! ## Nodes alone -/

theorem tokenize_eq_node_iff (hne : t ≠ []) :
    (∃ value, tokenize t = .ok [⟨.node, value⟩]) ↔ HasParts t := by
  constructor
  · rintro ⟨value, h⟩
    have hcut := tokenize_eq_ok_iff.1 h
    cases hcut with
    | cons hpiece hnone =>
      cases hnone with
      | nil =>
        cases hpiece with
        | node _ hparts _ => exact ⟨_, hparts, List.append_nil _⟩
  · intro h
    have hnone : NoPart [] := noPart_of_mark nofun
    have hcut : Cut (t ++ []) [⟨.node, t⟩] := .cons (h.piece hne hnone) .nil
    rw [List.append_nil] at hcut
    exact ⟨t, tokenize_eq_ok_iff.2 hcut⟩

/-- A text in braces that is one node is an abbreviation. -/
theorem isMarkup_braced_of_node {value : Text} (h : tokenize (braced t) = .ok [⟨.node, value⟩]) :
    isMarkup (braced t) = .ok true := by
  have hreads : ReadsAs (braced t) (.mk (.node value none) .done) :=
    ⟨⟨'{', rfl, by decide, by decide⟩, tokenize_eq_ok_iff.1 h, trivial, trivial⟩
  exact hreads.isMarkup_eq_true (c := '{') List.mem_cons_self (by decide)

end Abbreviation

namespace Extensions

open Abbreviation Data

variable {t : Text}

/-! ## Stored snippets -/

/-- Raw markup: a text from an opening to a closing angle bracket. -/
def IsRawMarkup (t : Text) : Prop := t.head? = some '<' ∧ t.getLast? = some '>'

theorem normalizeSnippet_of_raw (h : IsRawMarkup t) : normalizeSnippet false t = braced t := by
  rw [normalizeSnippet, if_pos (by simp [h.1, h.2])]
  rfl

/-- Of the texts under keys that are written alike the last one is stored. -/
theorem get?_normalizeSnippets {stylesheet : Bool} {snippets : Mapping} {key : Scalar}
    {before after : List (Scalar × Value)} (hentries : snippets.entries = before ++ (key, .text t) :: after)
    (hlast : ∀ e ∈ after, e.2.text?.isSome = true → e.1.toText ≠ key.toText) :
    (normalizeSnippets stylesheet snippets).get? key.toText = some (normalizeSnippet stylesheet t) := by
  rw [normalizeSnippets, Dict.get?_ofList_eq_some_iff, hentries, List.filterMap_append]
  refine ⟨_, (key.toText, normalizeSnippet stylesheet t), _, congrArg _ (List.filterMap_cons_some rfl),
    BEq.rfl, rfl, fun later hlater => ?_⟩
  obtain ⟨⟨k, v⟩, he, hlater⟩ := List.mem_filterMap.1 hlater
  obtain ⟨t', ht', rfl⟩ := Option.map_eq_some_iff.1 hlater
  exact beq_false_of_ne (hlast (k, v) he (by rw [ht']; rfl))

/-- **A snippet of raw markup is stored in braces, and they make one node of it exactly when the
markup is `OneNode`.** It is one block when the braces in it pair up, and so when every brace stands
behind a backslash that takes it. -/
theorem normalizeSnippets_oneNode_iff {dialect key : Scalar} {snippets : Mapping}
    {before after : List (Scalar × Value)} (hdialect : isStylesheetSection dialect = false)
    (hentries : snippets.entries = before ++ (key, .text t) :: after)
    (hlast : ∀ e ∈ after, e.2.text?.isSome = true → e.1.toText ≠ key.toText) (ht : IsRawMarkup t) :
    ∃ stored, (normalizeSnippets (isStylesheetSection dialect) snippets).get? key.toText = some stored ∧
      stored = braced t ∧
      ((∃ value, tokenize stored = .ok [⟨.node, value⟩]) ∧ isMarkup stored = .ok true ↔ OneNode t) ∧
      (Bracket.curly.closing? stored = some (t.length + 1) ↔ Bracket.curly.Body t) ∧
      (.bare '{' ∉ signs t → .bare '}' ∉ signs t → Bracket.curly.Body t) := by
  have hend : t.getLast? ≠ some '\\' := by
    rw [ht.2]
    decide
  refine ⟨braced t, ?_, rfl, ?_, closing?_braced_iff, fun hopening hclosing =>
    body_of_no_braces hopening hclosing (mt getLast?_of_bare_escape hend)⟩
  · rw [get?_normalizeSnippets hentries hlast, hdialect, normalizeSnippet_of_raw ht]
  · rw [← hasParts_braced_iff hend, ← tokenize_eq_node_iff (t := braced t) (List.cons_ne_nil _ _)]
    exact ⟨And.left, fun h => ⟨h, isMarkup_braced_of_node h.choose_spec⟩⟩

/-- The text with the pair of braces and an escaped brace is stored for the integer 1, over the
text that is there for the key `"1"`. -/
theorem normalizeSnippets_oneNode_iff_escaped :
    let t := "<p>\x7ba\x7d\\\x7d</p>".toList
    let snippets : Mapping := .ofList
      [(.text ['1'], .text ['x']), (.int 1, .text t), (.text "hr".toList, .text "<hr>".toList)]
    isStylesheetSection (.text "html".toList) = false ∧ IsRawMarkup t ∧
      ∃ stored, (normalizeSnippets (isStylesheetSection (.text "html".toList)) snippets).get? ['1'] = some stored ∧
        stored = braced t ∧ (∃ value, tokenize stored = .ok [⟨.node, value⟩]) ∧ isMarkup stored = .ok true := by
  intro t snippets
  have hdialect : isStylesheetSection (.text "html".toList) = false := by decide +kernel
  have ht : IsRawMarkup t := ⟨rfl, rfl⟩
  have hentries : snippets.entries = [(.text ['1'], .text ['x'])] ++
      (.int 1, .text t) :: [(.text "hr".toList, .text "<hr>".toList)] := rfl
  have hlast : ∀ e ∈ [(Scalar.text "hr".toList, Value.text "<hr>".toList)],
      e.2.text?.isSome = true → e.1.toText ≠ (Scalar.int 1).toText := by
    intro e he _
    obtain rfl := List.mem_singleton.1 he
    decide +kernel
  obtain ⟨stored, hget, hstored, hnode, hclosing, -⟩ :=
    normalizeSnippets_oneNode_iff hdialect hentries hlast ht
  have hbody : Bracket.curly.Body t := hclosing.1 (by rw [hstored]; decide +kernel)
  exact ⟨hdialect, ht, stored, hget, hstored, hnode.2 (.block hbody)⟩

/-- **Raw markup with a single `}` is stored as a text that is no abbreviation**: the block ends at
that brace, and what is behind it begins no piece. -/
theorem normalizeSnippets_not_always :
    ¬ ∀ (dialect key : Scalar) (snippets : Mapping) (t : Text), isStylesheetSection dialect = false →
      (key, .text t) ∈ snippets.entries → IsRawMarkup t →
        ∃ stored, (normalizeSnippets (isStylesheetSection dialect) snippets).get? key.toText = some stored ∧
          (∃ value, tokenize stored = .ok [⟨.node, value⟩]) ∧ isMarkup stored = .ok true := by
  intro claim
  obtain ⟨stored, hget, ⟨value, htokens⟩, -⟩ := claim (.text "html".toList) (.text "smile".toList)
    (.ofList [(.text "smile".toList, .text "<p>:\x7d</p>".toList)]) "<p>:\x7d</p>".toList (by decide +kernel)
    List.mem_cons_self ⟨rfl, rfl⟩
  have hstored : some stored = some (braced "<p>:\x7d</p>".toList) := hget.symm.trans (by decide +kernel)
  have hfault : tokenize (braced "<p>:\x7d</p>".toList) = .error (.malformed (.unexpected '<' 6)) := by
    decide +kernel
  rw [Option.some.inj hstored, hfault] at htokens
  cases htokens

end Extensions

end Shorthand
