import Folio.Proofs.Draft.Sequence
import Folio.Proofs.Markdown.Links
import Folio.Proofs.Text.Lines
import Folio.Render

/-!
# Addresses with a scheme

An address that starts with a scheme leads out of the book. The scheme is a letter and what follows
it: letters, digits, plus and minus signs, and dots. An address is known by its scheme if there is
no digit among them, and then it is carried through as it stands, whatever is behind the scheme. One
with a digit in its scheme is taken for a path in the book: it is decoded, and it may name a page or
a label.
-/

namespace Folio.Markdown

open Text

/-! ### Schemes -/

/-- Whether a character may stand in a scheme. -/
def isSchemeSign (c : Char) : Bool := c.isAlphanum || c = '+' || c = '-' || c = '.'

/-- Whether a text is a scheme. -/
def isScheme (s : String) : Bool :=
  match s.toList with
  | [] => false
  | c :: rest => c.isAlpha && rest.all isSchemeSign

/-- A text without digits. -/
def HasNoDigit (s : String) : Prop := ∀ c ∈ s.toList, c.isDigit = false

instance (s : String) : Decidable (HasNoDigit s) := List.decidableBAll _ s.toList

/-- The characters of a scheme are below the limit of ASCII. -/
theorem toNat_lt_of_isSchemeSign {c : Char} (h : isSchemeSign c = true) : c.toNat < 128 := by
  simp only [isSchemeSign, Bool.or_eq_true, decide_eq_true_eq] at h
  rcases h with ((h | rfl) | rfl) | rfl
  · exact (of_isKept (by rw [isKept, h, Bool.true_or])).1
  all_goals decide

/-- Of the characters of a scheme, the digits are not known as such. -/
theorem isSchemeChar_eq {c : Char} (h : isSchemeSign c = true) : isSchemeChar c = !c.isDigit := by
  have hall : ∀ n < 128, isSchemeSign (Char.ofNat n) = true →
      isSchemeChar (Char.ofNat n) = !(Char.ofNat n).isDigit := by decide
  have hchar := hall c.toNat (toNat_lt_of_isSchemeSign h)
  rw [Char.ofNat_toNat] at hchar
  exact hchar h

/-- A scheme starts with a letter and has only characters that may stand in it. -/
theorem exists_of_isScheme {s : String} (h : isScheme s = true) :
    ∃ c rest, s.toList = c :: rest ∧ ∀ d ∈ c :: rest, isSchemeSign d = true := by
  rw [isScheme] at h
  split at h
  · cases h
  · next c rest hs =>
    rw [Bool.and_eq_true, List.all_eq_true] at h
    refine ⟨c, rest, hs, List.forall_mem_cons.mpr ⟨?_, h.2⟩⟩
    simp [isSchemeSign, Char.isAlphanum, h.1]

variable {scheme : String}

/-- A scheme is made of the characters that it may have. -/
theorem isSchemeSign_of_mem (h : isScheme scheme = true) {c : Char} (hc : c ∈ scheme.toList) :
    isSchemeSign c = true := by
  obtain ⟨first, rest, hs, hsigns⟩ := exists_of_isScheme h
  exact hsigns c (hs ▸ hc)

/-- No scheme has a colon. -/
theorem colon_not_mem_of_isScheme (h : isScheme scheme = true) : ':' ∉ scheme.toList := fun hc =>
  absurd (isSchemeSign_of_mem h hc) (by decide)

/-! ### Addresses that are known by their scheme -/

/-- An address is known by its scheme if it has a colon and two slashes behind some characters of
schemes. -/
theorem isAbsoluteUrl_iff {s : String} :
    isAbsoluteUrl s = true ↔
      ∃ front rest, front ≠ [] ∧ (∀ c ∈ front, isSchemeChar c = true) ∧
        s.toList = front ++ "://".toList ++ rest := by
  rw [isAbsoluteUrl, List.span_eq_takeWhile_dropWhile, Bool.and_eq_true, isSome_after?_iff]
  constructor
  · rintro ⟨hne, rest, hrest⟩
    refine ⟨s.toList.takeWhile isSchemeChar, rest, by simpa using hne,
      fun c hc => List.mem_takeWhile_imp hc, ?_⟩
    rw [List.append_assoc, hrest, List.takeWhile_append_dropWhile]
  · rintro ⟨front, rest, hne, hfront, hs⟩
    have hcolon : isSchemeChar ':' = false := by decide
    rw [hs, List.append_assoc, List.takeWhile_append_of_pos hfront,
      List.dropWhile_append_of_pos hfront]
    change (!(front ++ List.takeWhile isSchemeChar (':' :: '/' :: '/' :: rest)).isEmpty) = true ∧
      _ <+: List.dropWhile isSchemeChar (':' :: '/' :: '/' :: rest)
    rw [List.takeWhile_cons_of_neg (by simp [hcolon]),
      List.dropWhile_cons_of_neg (by simp [hcolon])]
    exact ⟨by simpa using hne, rest, rfl⟩

/-- The scheme of an address is what stands in front of its first colon. -/
theorem eq_of_append_colon {front rest tail : List Char} (h : isScheme scheme = true)
    (hfront : ':' ∉ front) (heq : scheme.toList ++ ':' :: rest = front ++ ':' :: tail) :
    scheme.toList = front := by
  have hscheme : ∀ c ∈ scheme.toList, ¬c = ':' := fun c hc heq =>
    colon_not_mem_of_isScheme h (heq ▸ hc)
  exact (first_unique hscheme rfl (fun c hc heq => hfront (heq ▸ hc)) rfl heq).1

/-- An address is a scheme, a colon with two slashes, and the rest. -/
theorem toList_address (scheme rest : String) :
    (scheme ++ "://" ++ rest).toList = scheme.toList ++ ':' :: '/' :: '/' :: rest.toList := by
  rw [String.toList_append, String.toList_append, List.append_assoc]
  rfl

variable {href rest : String}

/-- An address with a scheme is known by it exactly if the scheme has no digit. -/
theorem isAbsoluteUrl_iff_hasNoDigit (h : isScheme scheme = true)
    (hhref : href = scheme ++ "://" ++ rest) : isAbsoluteUrl href = true ↔ HasNoDigit scheme := by
  rw [isAbsoluteUrl_iff, hhref, toList_address]
  constructor
  · rintro ⟨front, tail, -, hfront, heq⟩
    have hcolon : ':' ∉ front := fun hc => absurd (hfront _ hc) (by decide)
    rw [List.append_assoc] at heq
    intro c hc
    have hknown := hfront c (eq_of_append_colon h hcolon heq ▸ hc)
    rwa [isSchemeChar_eq (isSchemeSign_of_mem h hc), Bool.not_eq_true'] at hknown
  · intro hdigit
    refine ⟨scheme.toList, rest.toList, ?_, fun c hc => ?_, by rw [List.append_assoc]; rfl⟩
    · obtain ⟨c, tail, hs, -⟩ := exists_of_isScheme h
      rw [hs]
      exact List.cons_ne_nil c tail
    · rw [isSchemeChar_eq (isSchemeSign_of_mem h hc), hdigit c hc]
      rfl

/-! ### Links on a page -/

/-- An address with a scheme that starts like a mail address has no digit in its scheme. -/
theorem hasNoDigit_of_startsWith (h : isScheme scheme = true)
    (hhref : href = scheme ++ "://" ++ rest) (hmail : startsWith href "mailto:" = true) :
    HasNoDigit scheme := by
  obtain ⟨tail, htail⟩ := startsWith_iff.mp hmail
  rw [hhref, toList_address] at htail
  have hsplit : scheme.toList ++ ':' :: '/' :: '/' :: rest.toList =
      "mailto".toList ++ ':' :: tail := htail.symm
  have hmailto : HasNoDigit "mailto" := by decide
  rwa [HasNoDigit, eq_of_append_colon h (by decide) hsplit]

/-- An address with a scheme starts with a character of the scheme, also when it is decoded. -/
theorem exists_decoded (h : isScheme scheme = true) (hhref : href = scheme ++ "://" ++ rest) :
    ∃ c tail decoded, isSchemeSign c = true ∧ href.toList = c :: tail ∧
      (percentDecoded href).toList = c :: decoded := by
  obtain ⟨c, signs, hs, hsigns⟩ := exists_of_isScheme h
  have hc := hsigns c List.mem_cons_self
  have hne : c ≠ '%' := by
    rintro rfl
    exact absurd hc (by decide)
  have hlist : href.toList = c :: (signs ++ ':' :: '/' :: '/' :: rest.toList) := by
    rw [hhref, toList_address, hs]
    rfl
  have hdecoded : (percentDecoded href).toList =
      c :: decodeAfter 0 (percentBytes (signs ++ ':' :: '/' :: '/' :: rest.toList)) := by
    rw [percentDecoded, String.toList_ofList, hlist, percentBytes_cons_of_ne hne,
      decodeAfter_plainByte (toNat_lt_of_isSchemeSign hc)]
  exact ⟨c, _, _, hc, hlist, hdecoded⟩

/-- The path in front of the anchor of an address. -/
def addressPath (s : String) : String := String.ofList (s.toList.takeWhile (· ≠ '#'))

/-- A link by an address with a scheme keeps the address exactly if there is no digit in the scheme,
or the address is decoded to itself and does not name a page. -/
theorem linkNode_eq_link_iff (h : isScheme scheme = true) (hhref : href = scheme ++ "://" ++ rest)
    (page : String) (children : List Node) :
    linkNode page href children = .link href children ↔
      HasNoDigit scheme ∨ percentDecoded href = href ∧ isPagePath (addressPath href) = false := by
  by_cases hdigit : HasNoDigit scheme
  · have habsolute := (isAbsoluteUrl_iff_hasNoDigit h hhref).mpr hdigit
    exact iff_of_true (if_pos (.inr (.inl habsolute))) (.inl hdigit)
  · obtain ⟨c, tail, decoded, hc, hlist, hdecoded⟩ := exists_decoded h hhref
    have hfilled : href ≠ "" := by
      rintro rfl
      cases hlist
    have hpath : ¬(href = "" ∨ isAbsoluteUrl href = true ∨ startsWith href "mailto:" = true) := by
      rintro (hempty | habsolute | hmail)
      · exact hfilled hempty
      · exact hdigit ((isAbsoluteUrl_iff_hasNoDigit h hhref).mp habsolute)
      · exact hdigit (hasNoDigit_of_startsWith h hhref hmail)
    have haway : ¬startsWith (percentDecoded href) "#" = true := by
      intro hsign
      obtain ⟨more, hmore⟩ := startsWith_iff.mp hsign
      rw [hdecoded] at hmore
      obtain ⟨rfl, -⟩ := List.cons.inj hmore
      exact absurd hc (by decide)
    rw [linkNode, if_neg hpath]
    dsimp only
    rw [if_neg haway, ← addressPath]
    split
    · next hpage =>
      constructor
      · intro heq
        cases heq
      · rintro (hnone | ⟨hsame, hplain⟩)
        · exact absurd hnone hdigit
        · rw [hsame, hplain] at hpage
          cases hpage
    · next hplain =>
      rw [Node.link.injEq, and_iff_left rfl, or_iff_right hdigit]
      exact ⟨fun hsame => ⟨hsame, by rwa [hsame, Bool.not_eq_true] at hplain⟩, And.left⟩

/-! ### Links as they are written -/

/-- A text can be cut at a mark if the mark is in it. -/
theorem isSome_cut?_iff {mark cs : List Char} : (cut? mark cs).isSome ↔ mark <:+: cs := by
  induction cs with
  | nil => cases mark <;> simp [cut?]
  | cons c cs ih =>
    rw [cut?, List.infix_cons_iff, ← isSome_after?_iff, ← ih]
    cases after? mark (c :: cs) with
    | some tail => simp
    | none => simp

/-- An address with a scheme is linked to as it stands exactly if there is no digit in the scheme,
or the address does not have the form of a label on a page. -/
theorem linkTarget_eq_address_iff (h : isScheme scheme = true)
    (hhref : href = scheme ++ "://" ++ rest) (labels : Labels) (page : String) :
    linkTarget labels page href = .ok (.address href) ↔
      HasNoDigit scheme ∨ ¬".md#".toList <:+: href.toList := by
  by_cases hdigit : HasNoDigit scheme
  · have habsolute := (isAbsoluteUrl_iff_hasNoDigit h hhref).mpr hdigit
    exact iff_of_true (if_pos habsolute) (.inl hdigit)
  · have hpath : ¬isAbsoluteUrl href = true := fun habsolute =>
      hdigit ((isAbsoluteUrl_iff_hasNoDigit h hhref).mp habsolute)
    obtain ⟨c, tail, -, hc, hlist, -⟩ := exists_decoded h hhref
    have hsign : c ≠ '#' := by
      rintro rfl
      exact absurd hc (by decide)
    rw [linkTarget, if_neg hpath, or_iff_right hdigit, ← isSome_cut?_iff]
    cases cut? ".md#".toList href.toList with
    | some parts =>
      obtain ⟨before, fragment⟩ := parts
      refine iff_of_false ?_ (fun hnone => hnone rfl)
      dsimp only
      cases labels.resolve (String.ofList before ++ ".md") (String.ofList fragment) with
      | error f =>
        intro heq
        cases heq
      | ok id =>
        intro heq
        cases heq
    | none =>
      refine iff_of_true ?_ (by simp)
      rw [hlist]
      dsimp only
      split
      · next heq => exact absurd (List.cons.inj heq).1 hsign
      · rfl

/-- A link around its text. -/
def linkAround (target : Target) (text : Draft) : Draft :=
  Draft.ofPiece (.link target) >> Draft.markup "[" >> text >> Draft.markup "]"

/-- Links to different targets are different, whatever their texts. -/
theorem linkAround_ne {target other : Target} (hne : target ≠ other) (text text' : Draft) :
    linkAround target text ≠ linkAround other text' := by
  intro heq
  have hpieces := congrArg Draft.pieces heq
  rw [linkAround, linkAround, Draft.pieces_seq rfl, Draft.pieces_seq rfl] at hpieces
  exact hne (Piece.link.inj (List.cons.inj hpieces).1)

/-- Outside of headings, a link to an address with a scheme is written as one exactly if the address
is linked to as it stands. -/
theorem draftNode_link_eq_iff (r : Renderer) (expand : Context → List Node → Draft) {c : Context}
    (hheading : c.inHeading = false) (destination : String) (children : List Node) :
    draftNode r expand c (.link destination children) =
        linkAround (.address destination) (draftAll r expand c children) ↔
      linkTarget r.labels c.page destination = .ok (.address destination) := by
  rw [draftNode, if_neg (by simp [hheading])]
  cases htarget : linkTarget r.labels c.page destination with
  | error f =>
    constructor
    · intro heq
      have hpieces := congrArg Draft.pieces heq
      rw [linkAround, Draft.pieces_seq rfl] at hpieces
      cases hpieces
    · intro hok
      cases hok
  | ok target =>
    rw [Except.ok.injEq]
    change linkAround target _ = _ ↔ _
    constructor
    · exact fun heq => by_contra fun hne => linkAround_ne hne _ _ heq
    · rintro rfl
      rfl

/-- An address with a scheme is carried through as it stands if there is no digit in the scheme,
whatever page it is on and whatever is behind the scheme: the link on the page keeps it, and outside
of headings it is written as a link to this very address. With a digit in the scheme, the link keeps
the address exactly if it is decoded to itself and does not name a page, and it is written as a link
to the address exactly if this does not have the form of a label on a page. -/
theorem addresses_carried_iff {scheme rest href : String} (hscheme : isScheme scheme = true)
    (hhref : href = scheme ++ "://" ++ rest) :
    (∀ (page : String) (a : Attributes) (cs : List Element), a.attr "href" = href →
      (inlineNodes page (.mk .link a cs) = [.link href (inlineAll page cs)] ↔
        HasNoDigit scheme ∨
          percentDecoded href = href ∧ isPagePath (addressPath href) = false)) ∧
    (∀ (r : Renderer) (expand : Context → List Node → Draft) (c : Context) (children : List Node),
      c.inHeading = false →
        (draftNode r expand c (.link href children) =
            linkAround (.address href) (draftAll r expand c children) ↔
          HasNoDigit scheme ∨ ¬".md#".toList <:+: href.toList)) ∧
    (Piece.link (.address href)).written = "#link(\"" ++ Markup.escapeString href ++ "\")" := by
  refine ⟨fun page a cs ha => ?_, fun r expand c children hheading => ?_, ?_⟩
  · rw [← linkNode_eq_link_iff hscheme hhref page (inlineAll page cs)]
    simp only [inlineNodes, ha, List.cons.injEq, and_true]
  · rw [draftNode_link_eq_iff r expand hheading, linkTarget_eq_address_iff hscheme hhref]
  · rw [← String.toList_inj]
    simp [Piece.written, literalText]

/-- What a link says of itself that leads out of the book, to an address which ends like that of an
anchor on a page. -/
def outwardSample : Attributes :=
  ⟨"a", "", "", [(.scalar (.text "href"), .scalar (.text "https://x.org/a%20b.md#c"))], []⟩

/-- An address that ends like an anchor on a page is carried over. -/
theorem addresses_carried_iff_outwardSample :
    isScheme "https" = true ∧ outwardSample.attr "href" = "https" ++ "://" ++ "x.org/a%20b.md#c" ∧
      inlineNodes "guide.md" (.mk .link outwardSample []) =
        [.link ("https" ++ "://" ++ "x.org/a%20b.md#c") []] :=
  ⟨by decide, rfl,
    ((addresses_carried_iff (by decide) rfl).1 "guide.md" outwardSample [] rfl).mpr
      (.inl (by decide))⟩

/-- What a link says of itself that leads to a file in a store of another kind. -/
def storeSample : Attributes :=
  ⟨"a", "", "", [(.scalar (.text "href"), .scalar (.text "s3://bucket/notes.md"))], []⟩

/-- The digit in its scheme makes the link lead to a page of the book. -/
theorem digit_in_scheme_names_page :
    isScheme "s3" = true ∧ storeSample.attr "href" = "s3" ++ "://" ++ "bucket/notes.md" ∧
      inlineNodes "guide.md" (.mk .link storeSample []) = [.pageLink "s3:/bucket/notes.md" "" []] :=
  ⟨by decide, rfl, rfl⟩

end Folio.Markdown
