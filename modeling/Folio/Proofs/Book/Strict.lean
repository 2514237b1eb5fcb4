import Folio.Proofs.Book.Compare

/-!
# Strict and lenient writing

A strict book is written like a lenient one until a fragment is not found. Up to there both have
written and reported the same, so that being strict adds faults of this one kind and changes nothing
else: what is written strictly is written leniently as well, and any other fault ends both.
-/

namespace Folio

open Draft

/-- Whether a fault is a link to a fragment that the page does not have. -/
def Fault.IsUnresolved (f : Fault) : Prop := ∃ fragment page, f = .unresolved fragment page

/-- A strict draft is the lenient one, or the start of it up to a fragment that is not found. -/
def Draft.IsStricter (strict lenient : Draft) : Prop :=
  strict = lenient ∨
    (∃ f, strict.fault = some f ∧ f.IsUnresolved) ∧
      strict.pieces <+: lenient.pieces ∧ strict.notices <+: lenient.notices

namespace Draft.IsStricter

variable {a a' b b' : Draft}

/-- What a sequence has written begins with what its first part has. -/
theorem seq (ha : IsStricter a a') (hb : IsStricter b b') : IsStricter (a >> b) (a' >> b') := by
  rcases ha with rfl | ⟨⟨f, hfault, hf⟩, hpieces, hnotices⟩
  -- Both have gone through the first part alike, and go on or have ended there.
  · cases hfault : a.fault with
    | some f =>
      left
      rw [seq_of_fault hfault, seq_of_fault hfault]
    | none =>
      rcases hb with rfl | ⟨⟨f, hf, hunresolved⟩, hpieces, hnotices⟩
      · exact .inl rfl
      · refine .inr ⟨⟨f, (fault_seq hfault b).trans hf, hunresolved⟩, ?_, ?_⟩
        · rw [pieces_seq hfault, pieces_seq hfault]
          exact (List.prefix_append_right_inj _).mpr hpieces
        · rw [notices_seq hfault, notices_seq hfault]
          exact (List.prefix_append_right_inj _).mpr hnotices
  -- The strict draft has ended in its first part, and the lenient one may have gone on.
  · rw [seq_of_fault hfault]
    refine .inr ⟨⟨f, hfault, hf⟩, ?_⟩
    cases hfault' : a'.fault with
    | some f' =>
      rw [seq_of_fault hfault']
      exact ⟨hpieces, hnotices⟩
    | none =>
      rw [pieces_seq hfault', notices_seq hfault']
      exact ⟨hpieces.trans (List.prefix_append ..), hnotices.trans (List.prefix_append ..)⟩

theorem congruence : Congruence IsStricter := ⟨fun _ => .inl rfl, seq⟩

end Draft.IsStricter

/-- A renderer that takes an unknown fragment for a fault, or does not. -/
def Renderer.withStrict (r : Renderer) (strict : Bool) : Renderer :=
  { r with labels := { r.labels with strict } }

/-- Strict labels find what lenient ones find, or nothing at all. -/
theorem Labels.resolve_strict (labels : Labels) (page fragment : String) :
    { labels with strict := true }.resolve page fragment =
        { labels with strict := false }.resolve page fragment ∨
      { labels with strict := true }.resolve page fragment =
        .error (.unresolved fragment (Path.normal labels.base page)) := by
  simp only [resolve, resolveName]
  split
  · exact .inl rfl
  · split
    · exact .inl rfl
    · exact .inr rfl

/-- A strict renderer and a lenient one differ where a fragment is not found only. -/
theorem Renderer.agrees_withStrict (r : Renderer) :
    Agrees IsStricter (r.withStrict true) (r.withStrict false) where
  toCongruence := IsStricter.congruence
  base := rfl
  lexers := rfl
  image _ _ _ := .inl rfl
  resolve page fragment next next' hnext := by
    rcases r.labels.resolve_strict page fragment with heq | hnone
    · simp only [withStrict, heq]
      cases { r.labels with strict := false }.resolve page fragment with
      | ok id => exact hnext id
      | error f => exact .inl rfl
    · simp only [withStrict, hnone]
      exact .inr ⟨⟨_, rfl, _, _, rfl⟩, List.nil_prefix, List.nil_prefix⟩

namespace Book

/-- A strict book is stricter than the book that is not. -/
theorem agrees_ofPages (lexers : Language.Lexers) (base : String) (source : Option Folder)
    (ps : List Page) :
    Agrees IsStricter (ofPages lexers base true source ps)
      (ofPages lexers base false source ps) where
  toAgrees := Renderer.agrees_withStrict (ofPages lexers base false source ps).renderer
  hasHeadings := rfl
  rawPage _ := .inl rfl

/-- What a strict book renders to is stricter than what the other one does. -/
theorem render_isStricter (lexers : Language.Lexers) (base : String) (source : Option Folder)
    (preamble : String) (ps : List Page) :
    IsStricter (render lexers base true source preamble ps)
      (render lexers base false source preamble ps) := by
  unfold render Labels.ofPages?
  split
  · exact draft_agrees (agrees_ofPages lexers base source ps) preamble ps
  · exact .inl rfl

end Book

/-- Being strict only adds faults: what is written strictly is written leniently as well, with the
same text; a fault other than a fragment that is not found ends both; and what cannot be written
leniently cannot be written strictly, for the same reason or for such a fragment. Up to it both have
written and reported the same. -/
structure Draft.OnlyAddsFaults (strict lenient : Draft) : Prop where
  text : strict.fault = none → lenient.fault = none ∧ lenient.text = strict.text
  fault : ∀ f, strict.fault = some f → ¬f.IsUnresolved → lenient.fault = some f
  lenientFault : ∀ f, lenient.fault = some f →
    strict.fault = some f ∨ ∃ g, strict.fault = some g ∧ g.IsUnresolved
  pieces : strict.pieces <+: lenient.pieces
  notices : strict.notices <+: lenient.notices

/-- A stricter draft is the lenient one up to a fault of its own. -/
theorem Draft.IsStricter.onlyAddsFaults {strict lenient : Draft} (h : IsStricter strict lenient) :
    OnlyAddsFaults strict lenient := by
  rcases h with rfl | ⟨⟨g, hfault, hg⟩, hpieces, hnotices⟩
  · exact ⟨fun h => ⟨h, rfl⟩, fun _ h _ => h, fun _ h => .inl h, List.prefix_rfl, List.prefix_rfl⟩
  · constructor
    · intro hnone
      rw [hfault] at hnone
      cases hnone
    · intro f hf hother
      obtain rfl := Option.some.inj (hf.symm.trans hfault)
      exact absurd hg hother
    · exact fun _ _ => .inr ⟨g, hfault, hg⟩
    · exact hpieces
    · exact hnotices

/-- Being strict only adds faults to a book, whatever its pages, and to a hand-written page,
whatever its text. -/
theorem strict_only_adds_faults (lexers : Language.Lexers) (base : String) (source : Option Folder)
    (preamble : String) (ps : List Page) (x : Expander) (page text : String) :
    OnlyAddsFaults (Book.render lexers base true source preamble ps)
        (Book.render lexers base false source preamble ps) ∧
      OnlyAddsFaults ({ x with renderer := x.renderer.withStrict true }.expand page text).draft
        ({ x with renderer := x.renderer.withStrict false }.expand page text).draft := by
  have hbook := Book.render_isStricter lexers base source preamble ps
  have hpage := Expander.expand_agrees x.renderer.agrees_withStrict x page text
  exact ⟨hbook.onlyAddsFaults, hpage.onlyAddsFaults⟩

end Folio
