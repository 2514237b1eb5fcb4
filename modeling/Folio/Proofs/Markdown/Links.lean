import Folio.Markdown.Convert
import Folio.Proofs.Path.Relative
import Folio.Proofs.Text.Parts
import Folio.Proofs.Text.Percent
import Mathlib.Data.List.TakeDrop

/-!
# Links from page to page

A page links to another one by the path that leads there from its own folder, percent-encoded, with
an encoded anchor behind a hash sign. What the link becomes in the document tree has nothing of that
form left: it names the page and the anchor as they are.
-/

namespace Folio.Markdown

open Text

/-- A name on the path of a page. -/
structure IsPageName (name : String) : Prop where
  isName : Path.IsName name.toList
  backslash : '\\' ∉ name.toList

instance (name : String) : Decidable (IsPageName name) :=
  decidable_of_iff (Path.IsName name.toList ∧ '\\' ∉ name.toList)
    ⟨fun ⟨hname, hbackslash⟩ => ⟨hname, hbackslash⟩, fun ⟨hname, hbackslash⟩ => ⟨hname, hbackslash⟩⟩

/-- The path with the given names. -/
def pathOf (names : List String) : String := joinWith "/" names

/-- The path from a page that lies below some folders to a page that does not. -/
def relativePath (above below : List String) : String :=
  pathOf (List.replicate above.length ".." ++ below)

/-- The address by which a page links to another page, or to an anchor on it. -/
def relativeAddress (above below : List String) (fragment : String) : String :=
  percentEncoded (relativePath above below) ++
    if fragment = "" then "" else "#" ++ percentEncoded fragment

variable {common above below names : List String} {file fragment : String}

/-! ### Paths -/

theorem toList_pathOf (names : List String) :
    (pathOf names).toList = ['/'].intercalate (names.map String.toList) :=
  toList_joinWith "/" names

theorem toList_relativePath (above below : List String) :
    (relativePath above below).toList =
      ['/'].intercalate (Path.climbing (above.map String.toList) (below.map String.toList)) := by
  rw [relativePath, toList_pathOf, Path.climbing, List.map_append, List.map_replicate,
    List.length_map]
  rfl

/-- The names of a path as characters. -/
theorem isName_of_mem_map (h : ∀ name ∈ names, IsPageName name) :
    ∀ name ∈ names.map String.toList, Path.IsName name := by
  intro name hname
  obtain ⟨s, hs, rfl⟩ := List.mem_map.mp hname
  exact (h s hs).isName

/-- The path of a page has no backslash, so that it is not changed when it is looked at. -/
theorem withSlashes_pathOf (h : ∀ name ∈ names, IsPageName name) :
    Path.withSlashes (pathOf names).toList = (pathOf names).toList := by
  have hplain : ∀ c ∈ (pathOf names).toList, c ≠ '\\' := by
    rintro c hc rfl
    rw [toList_pathOf] at hc
    rcases mem_intercalate hc with hslash | ⟨part, hpart, hmem⟩
    · exact absurd hslash (by decide)
    · obtain ⟨name, hname, rfl⟩ := List.mem_map.mp hpart
      exact (h name hname).backslash hmem
  rw [Path.withSlashes, List.map_congr_left fun c hc => if_neg (hplain c hc), List.map_id']

/-- Whether a path is that of a page shows in its last name. -/
theorem isPagePath_pathOf (names : List String) (last : String) :
    isPagePath (pathOf (names ++ [last])) = isPagePath last := by
  have hending {ending : String} (h : '/' ∉ ending.toList) :
      endsWith (pathOf (names ++ [last])) ending = endsWith last ending := by
    rw [Bool.eq_iff_iff, endsWith_iff, endsWith_iff, toList_pathOf, List.map_append,
      List.map_singleton]
    exact suffix_intercalate_iff h
  rw [isPagePath, isPagePath, hending (by decide), hending (by decide)]

/-- The path to a page ends like the path of the page. -/
theorem isPagePath_relativePath (common above : List String) (hne : below ≠ []) :
    isPagePath (relativePath above below) = isPagePath (pathOf (common ++ below)) := by
  obtain ⟨front, last, rfl⟩ := (List.eq_nil_or_concat' below).resolve_left hne
  rw [relativePath, ← List.append_assoc, ← List.append_assoc, isPagePath_pathOf, isPagePath_pathOf]

/-- A sign that is not in the path of a page, and no dot, is not in a path to the page. -/
theorem not_mem_relativePath {c : Char} (above : List String)
    (hc : c ∉ (pathOf (common ++ below)).toList) (hdot : c ≠ '.') (hslash : c ≠ '/') :
    c ∉ (relativePath above below).toList := by
  intro hmem
  rw [toList_relativePath] at hmem
  rcases mem_intercalate hmem with hsign | ⟨part, hpart, hpartc⟩
  · exact hslash (List.mem_singleton.mp hsign)
  rcases List.mem_append.mp hpart with hup | hdown
  · rw [List.eq_of_mem_replicate hup] at hpartc
    simp [hdot] at hpartc
  · refine hc ?_
    rw [toList_pathOf, List.map_append]
    exact mem_intercalate_of_mem (List.mem_append_right _ hdown) hpartc

/-- A path to a page is not empty. -/
theorem relativePath_ne_nil (above : List String) (hbelow : ∀ name ∈ below, IsPageName name)
    (hne : below ≠ []) : (relativePath above below).toList ≠ [] := by
  have hnames : below.map String.toList ≠ [] := by simpa using hne
  obtain ⟨c, rest, hfirst, -⟩ :=
    (Path.isFilled_climbing (isName_of_mem_map hbelow) hnames).exists_first
  rw [toList_relativePath, hfirst]
  exact List.cons_ne_nil c rest

/-! ### Addresses -/

/-- An address without a colon has no scheme. -/
theorem isAbsoluteUrl_of_not_mem {s : String} (h : ':' ∉ s.toList) : isAbsoluteUrl s = false := by
  rw [isAbsoluteUrl, List.span_eq_takeWhile_dropWhile, Bool.and_eq_false_iff]
  refine .inr (Bool.eq_false_iff.mpr fun hafter => h ?_)
  exact (List.dropWhile_suffix _).subset ((isSome_after?_iff.mp hafter).subset (by decide))

theorem toList_relativeAddress (above below : List String) (fragment : String) :
    (relativeAddress above below fragment).toList =
      encodedChars (relativePath above below).toList ++
        if fragment = "" then [] else '#' :: encodedChars fragment.toList := by
  rw [relativeAddress, String.toList_append, percentEncoded, String.toList_ofList]
  split <;> simp [percentEncoded]

/-- A colon is encoded, on the path and in the anchor. -/
theorem colon_not_mem_relativeAddress (above below : List String) (fragment : String) :
    ':' ∉ (relativeAddress above below fragment).toList := by
  have hencoded (cs : List Char) : ':' ∉ encodedChars cs := fun h =>
    absurd (isKept_of_mem_encodedChars h) (by decide)
  rw [toList_relativeAddress, List.mem_append]
  rintro (h | h)
  · exact hencoded _ h
  · split at h
    · cases h
    · rcases List.mem_cons.mp h with hsign | hfragment
      · exact absurd hsign (by decide)
      · exact hencoded _ hfragment

/-- The address is decoded to the path and the anchor. -/
theorem toList_percentDecoded_relativeAddress (above below : List String) (fragment : String) :
    (percentDecoded (relativeAddress above below fragment)).toList =
      (relativePath above below).toList ++
        if fragment = "" then [] else '#' :: fragment.toList := by
  rw [percentDecoded, String.toList_ofList, toList_relativeAddress]
  split
  · rw [List.append_nil, List.append_nil, decodeAfter_encoded]
  · exact decodeAfter_between (by decide) (by decide) _ _

/-! ### Links -/

/-- An address without a colon that is decoded to a path, with or without an anchor, links to the
page that the path leads to. -/
theorem linkNode_of_decoded {page href : String} {path : List Char} (hcolon : ':' ∉ href.toList)
    (hdecoded : (percentDecoded href).toList =
      path ++ if fragment = "" then [] else '#' :: fragment.toList)
    (hne : path ≠ []) (hplain : '#' ∉ path) (hpage : isPagePath (String.ofList path) = true)
    (children : List Node) :
    linkNode page href children =
      .pageLink (String.ofList (Path.resolve (Path.withSlashes page.toList) path)) fragment
        children := by
  have hfilled : href ≠ "" := by
    rintro rfl
    exact hne (List.append_eq_nil_iff.mp hdecoded.symm).1
  have hmail : ¬startsWith href "mailto:" = true := fun h =>
    hcolon ((startsWith_iff.mp h).subset (by decide))
  have hhere : ¬startsWith (percentDecoded href) "#" = true := by
    intro h
    obtain ⟨tail, htail⟩ := startsWith_iff.mp h
    obtain ⟨c, rest, rfl⟩ := List.exists_cons_of_ne_nil hne
    rw [hdecoded, List.cons_append] at htail
    exact hplain ((List.cons.inj htail).1 ▸ List.mem_cons_self)
  obtain ⟨hpath, hfragment⟩ : (percentDecoded href).toList.takeWhile (· ≠ '#') = path ∧
      ((percentDecoded href).toList.dropWhile (· ≠ '#')).drop 1 = fragment.toList := by
    have hbefore : ∀ c ∈ path, decide (c ≠ '#') = true :=
      fun c hc => decide_eq_true fun heq => hplain (heq ▸ hc)
    rw [hdecoded, List.takeWhile_append_of_pos hbefore, List.dropWhile_append_of_pos hbefore]
    split
    · next hempty => simp [hempty]
    · simp
  have haway : ¬(href = "" ∨ isAbsoluteUrl href = true ∨ startsWith href "mailto:" = true) := by
    simp [hfilled, isAbsoluteUrl_of_not_mem hcolon, hmail]
  rw [linkNode, if_neg haway]
  dsimp only
  rw [if_neg hhere, hpath, hfragment, if_pos hpage, String.ofList_toList]

/-- A link by the address that leads from one page to another names the other page. -/
theorem linkNode_relativeAddress (hpage : ∀ name ∈ common ++ above ++ [file], IsPageName name)
    (htarget : ∀ name ∈ common ++ below, IsPageName name) (hne : below ≠ [])
    (hmark : '#' ∉ (pathOf (common ++ below)).toList)
    (hending : isPagePath (pathOf (common ++ below)) = true) (fragment : String)
    (children : List Node) :
    linkNode (pathOf (common ++ above ++ [file])) (relativeAddress above below fragment) children =
      .pageLink (pathOf (common ++ below)) fragment children := by
  obtain ⟨hcommon, hbelow⟩ := List.forall_mem_append.mp htarget
  obtain ⟨hfolders, hfile⟩ := List.forall_mem_append.mp hpage
  have habove := (List.forall_mem_append.mp hfolders).2
  have hresolved : Path.resolve (pathOf (common ++ above ++ [file])).toList
      (relativePath above below).toList = (pathOf (common ++ below)).toList := by
    rw [toList_pathOf, toList_relativePath, toList_pathOf, List.map_append, List.map_append,
      List.map_append]
    exact Path.resolve_climbing (isName_of_mem_map hcommon) (isName_of_mem_map habove)
      (isName_of_mem_map hbelow) (hfile file (List.mem_singleton_self file)).isName.slash
      (by simpa using hne)
  rw [linkNode_of_decoded (colon_not_mem_relativeAddress above below fragment)
    (toList_percentDecoded_relativeAddress above below fragment)
    (relativePath_ne_nil above hbelow hne)
    (not_mem_relativePath above hmark (by decide) (by decide))
    (by rwa [String.ofList_toList, isPagePath_relativePath common above hne]),
    withSlashes_pathOf hpage, hresolved, String.ofList_toList]

/-- A link on a page to another page, by the path that leads there out of the folders below any
beginning that the two paths share, becomes a link to that very page and anchor. -/
theorem relative_links_name_their_page (folders target : List String) (file fragment : String)
    (shared : Nat) {a : Attributes} (hfolders : ∀ name ∈ folders, IsPageName name)
    (hfile : IsPageName file) (htarget : ∀ name ∈ target, IsPageName name)
    (hmark : '#' ∉ (pathOf target).toList) (hending : isPagePath (pathOf target) = true)
    (hshared : folders.take shared = target.take shared) (hbelow : shared < target.length)
    (hhref : a.attr "href" = relativeAddress (folders.drop shared) (target.drop shared) fragment)
    (cs : List Element) :
    inlineNodes (pathOf (folders ++ [file])) (.mk .link a cs) =
      [.pageLink (pathOf target) fragment (inlineAll (pathOf (folders ++ [file])) cs)] := by
  have hhome : folders = folders.take shared ++ folders.drop shared :=
    (List.take_append_drop shared folders).symm
  have haway : target = folders.take shared ++ target.drop shared := by
    rw [hshared, List.take_append_drop]
  have hpage : ∀ name ∈ folders.take shared ++ folders.drop shared ++ [file], IsPageName name := by
    rw [← hhome]
    exact List.forall_mem_append.mpr ⟨hfolders, List.forall_mem_singleton.mpr hfile⟩
  have hne : target.drop shared ≠ [] := by simpa using hbelow
  have hlink := linkNode_relativeAddress hpage (haway ▸ htarget) hne (haway ▸ hmark)
    (haway ▸ hending) fragment (inlineAll (pathOf (folders ++ [file])) cs)
  rw [← hhome, ← haway] at hlink
  simp only [inlineNodes, hhref, hlink]

/-- What a link says of itself that leads out of a folder, to a page with a colon and a percent sign
in its name and an anchor with a hash sign. -/
def encodedSample : Attributes :=
  ⟨"a", "", "",
    [(.scalar (.text "href"), .scalar (.text "../gr%C3%B6%C3%9Fe/5%25%3A%20x.md#a%23b%25"))], []⟩

/-- On a page in another folder of the guide, this link names the page and the anchor. -/
theorem relative_links_name_their_page_encodedSample :
    inlineNodes "guide/en/start.md" (.mk .link encodedSample []) =
      [.pageLink "guide/größe/5%: x.md" "a#b%" []] :=
  relative_links_name_their_page ["guide", "en"] ["guide", "größe", "5%: x.md"] "start.md" "a#b%" 1
    (by decide) (by decide) (by decide) (by decide) (by decide) rfl (by decide) (by decide) []

end Folio.Markdown
