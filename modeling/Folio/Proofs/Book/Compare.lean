import Folio.Book
import Folio.Directive
import Folio.Proofs.Render.Compare

/-!
# The same book written by two renderers

What holds between the drafts of the same nodes by two renderers holds between the drafts of a whole
book, if the books agree on which paths have headings and on their hand-written pages, and between
the expansions of a hand-written page. Where hand-written pages and images are looked for does not
show in what is written: a book that finds them all reads as if nobody had looked.
-/

namespace Folio

open Draft

namespace Book

/-- Two books whose renderers agree know the same headings and take in hand-written pages alike. -/
structure Agrees (rel : Draft → Draft → Prop) (b b' : Book) : Prop
    extends Renderer.Agrees rel b.renderer b'.renderer where
  hasHeadings : b.renderer.labels.hasHeadings = b'.renderer.labels.hasHeadings
  rawPage : ∀ p, rel (b.rawPage p) (b'.rawPage p)

variable {rel : Draft → Draft → Prop} {b b' : Book} (h : Agrees rel b b')

include h

/-- The label of a page is set alike in both books. -/
theorem Agrees.pageAnchor_eq (p : Page) : b.pageAnchor p = b'.pageAnchor p := by
  rw [pageAnchor, pageAnchor, h.id_eq]

/-- A page is written alike. -/
theorem page_agrees (p : Page) : rel (b.page p) (b'.page p) := by
  unfold page
  split
  · exact h.refl _
  split
  · exact h.refl _
  split
  · exact h.rawPage p
  cases p.tree with
  | none => exact h.refl _
  | some tree =>
    have htree := Renderer.tree_agrees h.toAgrees (start p tree) tree
    simp only [h.hasHeadings, h.pageAnchor_eq]
    exact h.seq (h.refl _) (h.seq (h.refl _) (h.seq (h.refl _) htree))

/-- Pages are written alike. -/
theorem pages_agrees (ps : List Page) : rel (b.pages ps) (b'.pages ps) := by
  induction ps with
  | nil => exact h.refl _
  | cons p rest ih => exact h.seq (page_agrees h p) ih

/-- A book is written alike behind its preamble. -/
theorem draft_agrees (preamble : String) (ps : List Page) :
    rel (b.draft preamble ps) (b'.draft preamble ps) :=
  h.seq (h.refl _) (pages_agrees h ps)

end Book

namespace Expander

variable {rel : Draft → Draft → Prop} {r r' : Renderer} (h : Renderer.Agrees rel r r')
  (x : Expander) (page : String) (names : List String)

include h

/-- A reference of a raw page is written alike. -/
theorem reference_agrees (target : String) :
    rel ({ x with renderer := r }.reference page names target)
      ({ x with renderer := r' }.reference page names target) := by
  unfold reference
  cases localBinding? target names with
  | some name =>
    simp only [h.id_eq]
    exact h.refl _
  | none => exact h.resolve page target fun id => h.refl _

/-- A line of a raw page is written alike. -/
theorem line_agrees (parts : List Directive.Part) :
    rel ({ x with renderer := r }.line page names parts)
      ({ x with renderer := r' }.line page names parts) := by
  induction parts with
  | nil => exact h.refl _
  | cons part rest ih =>
    cases part with
    | char c => exact h.seq (h.refl _) ih
    | reference target => exact h.seq (reference_agrees h x page names _) ih

/-- A segment is expanded alike, and leaves the same footnotes. -/
theorem segment_agrees (notes : Footnotes) (s : Directive.Segment) :
    rel ({ x with renderer := r }.segment page names notes s).draft
        ({ x with renderer := r' }.segment page names notes s).draft ∧
      ({ x with renderer := r }.segment page names notes s).notes =
        ({ x with renderer := r' }.segment page names notes s).notes := by
  cases s with
  | sample lines closed => exact ⟨h.refl _, rfl⟩
  | comment line => exact ⟨h.refl _, rfl⟩
  | plain line => exact ⟨line_agrees h x page names _, rfl⟩
  | docs name =>
    simp only [segment]
    cases x.lookup.find? name with
    | none => exact ⟨h.refl _, rfl⟩
    | some found => exact ⟨h.seq (h.refl _) (Renderer.binding_agrees h _ _), rfl⟩

/-- The segments of a raw page are written alike. -/
theorem segments_agrees (notes : Footnotes) (ss : List Directive.Segment) :
    rel ({ x with renderer := r }.segments page names notes ss).draft
      ({ x with renderer := r' }.segments page names notes ss).draft := by
  induction ss generalizing notes with
  | nil => exact h.refl _
  | cons s ss ih =>
    obtain ⟨hdraft, hnotes⟩ := segment_agrees h x page names notes s
    cases ss with
    | nil => exact hdraft
    | cons t rest =>
      rw [draft_segments_cons, draft_segments_cons, hnotes]
      exact h.seq hdraft (h.seq (h.refl _) (ih _))

/-- A hand-written page is expanded alike. -/
theorem expand_agrees (text : String) :
    rel ({ x with renderer := r }.expand page text).draft
      ({ x with renderer := r' }.expand page text).draft :=
  h.seq (segments_agrees h x page _ [] _) (h.refl _)

end Expander

/-- Whether a draft, if it has no fault, holds the same as another one, which has none either. -/
def Draft.ReadsAs (d d' : Draft) : Prop := d.fault = none → d'.fault = none ∧ d'.pieces = d.pieces

theorem Draft.ReadsAs.congruence : Congruence ReadsAs where
  refl d hd := ⟨hd, rfl⟩
  seq := by
    intro a a' b b' ha hb hseq
    obtain ⟨hafault, hbfault⟩ := fault_seq_eq_none.mp hseq
    obtain ⟨ha', hapieces⟩ := ha hafault
    obtain ⟨hb', hbpieces⟩ := hb hbfault
    refine ⟨fault_seq_eq_none.mpr ⟨ha', hb'⟩, ?_⟩
    rw [pieces_seq ha', pieces_seq hafault, hapieces, hbpieces]

/-- A draft that reads as another one and ends has its text. -/
theorem Draft.ReadsAs.text_eq {d d' : Draft} (h : d.ReadsAs d') (hd : d.fault = none) :
    d'.text = d.text := by
  rw [Draft.text, Draft.text, (h hd).2]

/-- Looking for images writes nothing. -/
theorem Renderer.agrees_unlooked (labels : Labels) (lexers : Language.Lexers)
    (assets : Option Folder) : Agrees ReadsAs ⟨labels, lexers, assets⟩ ⟨labels, lexers, none⟩ where
  toCongruence := ReadsAs.congruence
  base := rfl
  lexers := rfl
  resolve page fragment next next' hnext := by
    cases labels.resolve page fragment with
    | ok id => exact hnext id
    | error f => exact ReadsAs.congruence.refl _
  image page destination isLocal := by
    unfold imageCheck
    simp only
    split
    · exact ReadsAs.congruence.refl _
    split
    · exact ReadsAs.congruence.refl _
    cases assets with
    | none => exact ReadsAs.congruence.refl _
    | some folder =>
      simp only
      cases folder.hasFile (imagePath page destination isLocal) with
      | error f => nofun
      | ok found => cases found <;> exact fun _ => ⟨rfl, rfl⟩

/-- A book that finds its images and hand-written pages reads as if nobody had looked for them. -/
theorem Book.agrees_unlooked (lexers : Language.Lexers) (labels : Labels) (source : Option Folder) :
    Agrees ReadsAs (ofLabels lexers labels source) (ofLabels lexers labels none) where
  toAgrees := Renderer.agrees_unlooked labels lexers source
  hasHeadings := rfl
  rawPage p := by
    cases source with
    | none => exact ReadsAs.congruence.refl _
    | some folder =>
      change ReadsAs (ofExcept (folder.hasFile p.path) fun found => ite _ _ _) _
      cases folder.hasFile p.path with
      | error f => nofun
      | ok found =>
        cases found with
        | false => nofun
        | true => exact ReadsAs.congruence.refl _

end Folio
