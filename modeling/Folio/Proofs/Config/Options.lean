import Folio.Config.Load
import Folio.Proofs.Results

/-!
# Options with nothing behind them

An option of a configuration that has nothing behind its colon is null. Most options that are null
count as absent. The others are read as what their null value looks like: a directory as the one
called `None`, the backend as the one called none, and a switch as off, whatever it is by default.
-/

namespace Folio

namespace Value

/-- The entries of a mapping except those of some text keys. -/
def without (keys : List String) (entries : List (Key × Value)) : List (Key × Value) :=
  entries.filter fun entry => entry.1 ∉ keys.map Key.text

/-- A mapping without the entries of some text keys; any other value is left as it is. -/
def stripped (keys : List String) : Value → Value
  | map entries => map (without keys entries)
  | v => v

/-- The entries of a mapping, with one of its values stripped. -/
def strippedAt (name : String) (keys : List String) (entries : List (Key × Value)) :
    List (Key × Value) :=
  entries.map fun (k, v) => (k, if k = .text name then v.stripped keys else v)

/-- A key is looked up from the front. -/
theorem lookup?_cons (key : String) (k : Key) (v : Value) (rest : List (Key × Value)) :
    lookup? key ((k, v) :: rest) = if k = .text key then some v else lookup? key rest := rfl

/-- Keys that are left out are not found, and others are. -/
theorem lookup?_without (keys : List String) (entries : List (Key × Value)) (key : String) :
    lookup? key (without keys entries) = if key ∈ keys then none else lookup? key entries := by
  have hkey : Key.text key ∈ keys.map Key.text ↔ key ∈ keys := by simp [Key.text]
  induction entries with
  | nil => simp [without, lookup?]
  | cons entry rest ih =>
    obtain ⟨k, v⟩ := entry
    rw [without, List.filter_cons, ← without, lookup?_cons]
    by_cases hk : k = .text key
    · by_cases hmem : key ∈ keys
      · simp only [hk, hkey, hmem, if_true] at ih ⊢
        simpa using ih
      · simp [hk, hkey, hmem, lookup?_cons]
    · rw [if_neg hk, ← ih]
      split
      · rw [lookup?_cons, if_neg hk]
      · rfl

/-- Leaving keys out of one section changes that section only. -/
theorem lookup?_strippedAt (name : String) (keys : List String) (entries : List (Key × Value))
    (key : String) :
    lookup? key (strippedAt name keys entries) =
      (lookup? key entries).map fun v => if key = name then v.stripped keys else v := by
  induction entries with
  | nil => rfl
  | cons entry rest ih =>
    obtain ⟨k, v⟩ := entry
    rw [strippedAt, List.map_cons, lookup?, lookup?]
    by_cases hk : k = .text key
    · subst hk
      simp [Key.text]
    · rw [if_neg hk, if_neg hk]
      exact ih

/-- Some keys of a mapping have the value null. -/
def AreNull (keys : List String) (entries : List (Key × Value)) : Prop :=
  ∀ key ∈ keys, lookup? key entries = some .null

section

variable {keys : List String} {entries : List (Key × Value)} {α : Type}

/-- A reader that does not tell null from absent reads the same without the keys that are null. -/
theorem AreNull.read_without (h : AreNull keys entries) (read : Option Value → α)
    (hread : read (some .null) = read none) (key : String) :
    read (lookup? key entries) = read (lookup? key (without keys entries)) := by
  rw [lookup?_without]
  split
  · next hmem => rw [h key hmem, hread]
  · rfl

/-- A reader that gives null a meaning of its own reads this meaning from a key that is null. -/
theorem AreNull.read_without_of_ok {ε : Type} (h : AreNull keys entries)
    (read : Option Value → Except ε α) {meaning default : α}
    (hnull : read (some .null) = .ok meaning) (habsent : read none = .ok default) (key : String) :
    read (lookup? key entries) =
      (fun a => if key ∈ keys then meaning else a) <$>
        read (lookup? key (without keys entries)) := by
  rw [lookup?_without]
  split
  · next hmem => rw [h key hmem, hnull, habsent]; rfl
  · cases read (lookup? key entries) <;> rfl

/-- The meaning of null shows exactly for the keys that are null, if an absent key stands for
something else. -/
theorem ite_meaning_eq_iff {ε : Type} (read : Option Value → Except ε α) {meaning default a : α}
    (habsent : read none = .ok default) (hne : meaning ≠ default) {key : String}
    (h : read (lookup? key (without keys entries)) = .ok a) :
    (if key ∈ keys then meaning else a) = a ↔ key ∉ keys := by
  rw [lookup?_without] at h
  by_cases hmem : key ∈ keys
  · rw [if_pos hmem, habsent] at h
    cases h
    rw [if_pos hmem]
    exact iff_of_false hne (not_not_intro hmem)
  · rw [if_neg hmem]
    exact iff_of_true rfl hmem

end

end Value

open Value

namespace CompileSettings

/-- The optional keys of the settings. -/
def optionalKeys : List String :=
  ["backend", "typst", "optimize_output", "use_system_fonts", "font_paths"]

/-- The backend that an option names. -/
def backendOf : Option Value → Except ConfigFault Backend
  | some v => v.plainText.bind Backend.ofName
  | none => .ok .bundled

/-- The executable that an option names. -/
def executableOf : Option Value → Except ConfigFault (Option String)
  | some v => if v.isFilled then v.plainText.map some else .ok none
  | none => .ok none

/-- How a switch stands that is on by default. -/
def switchOf (v : Option Value) : Bool := (v.map isFilled).getD true

/-- Each option is read by itself. -/
theorem ofEntries_eq (entries : List (Key × Value)) (version : String) :
    ofEntries entries version =
      (do
        let backend ← backendOf (lookup? "backend" entries)
        let executable ← executableOf (lookup? "typst" entries)
        let fonts ← fontsOf ((lookup? "font_paths" entries).getD .null)
        .ok
          { backend, executable, version
            optimize := switchOf (lookup? "optimize_output" entries)
            systemFonts := switchOf (lookup? "use_system_fonts" entries)
            fontDirectories := fonts }) := by
  dsimp only [ofEntries, executableOf]
  cases lookup? "backend" entries <;> cases lookup? "typst" entries with
  | none => rfl
  | some v =>
    by_cases hv : v.isFilled = true
    · simp only [if_pos hv]
      rfl
    · simp only [if_neg hv]
      rfl

/-- What settings become where some keys are null and not absent. -/
def nulled (keys : List String) (s : CompileSettings) : CompileSettings :=
  { s with
    backend := if "backend" ∈ keys then .none else s.backend
    optimize := if "optimize_output" ∈ keys then false else s.optimize
    systemFonts := if "use_system_fonts" ∈ keys then false else s.systemFonts }

/-- A null backend is no backend at all. -/
theorem backendOf_null : backendOf (some .null) = .ok .none := rfl

/-- A switch that is null is off, and others are as they are without the null keys. -/
theorem switchOf_without {keys : List String} {entries : List (Key × Value)}
    (h : AreNull keys entries) (key : String) :
    switchOf (lookup? key entries) =
      if key ∈ keys then false else switchOf (lookup? key (without keys entries)) := by
  rw [lookup?_without]
  split
  · next hmem => rw [h key hmem]; rfl
  · rfl

/-- Settings with keys that are null are those without these keys, up to the backend and the
switches among them. -/
theorem ofEntries_of_areNull {keys : List String} {entries : List (Key × Value)}
    (h : AreNull keys entries) (version : String) :
    ofEntries entries version = nulled keys <$> ofEntries (without keys entries) version := by
  have hbackend := h.read_without_of_ok backendOf backendOf_null rfl "backend"
  have hexecutable := h.read_without executableOf rfl "typst"
  have hfonts := h.read_without (fun v => fontsOf (v.getD .null)) rfl "font_paths"
  rw [ofEntries_eq, ofEntries_eq, hbackend, hexecutable, hfonts, switchOf_without h,
    switchOf_without h]
  cases backendOf (lookup? "backend" (without keys entries)) with
  | error f => rfl
  | ok backend =>
    cases executableOf (lookup? "typst" (without keys entries)) with
    | error f => rfl
    | ok executable =>
      cases fontsOf ((lookup? "font_paths" (without keys entries)).getD .null) <;> rfl

/-- What an option says stands in the settings. -/
theorem ofEntries_eq_ok {entries : List (Key × Value)} {version : String} {s : CompileSettings}
    (h : ofEntries entries version = .ok s) :
    backendOf (lookup? "backend" entries) = .ok s.backend ∧
      s.optimize = switchOf (lookup? "optimize_output" entries) ∧
      s.systemFonts = switchOf (lookup? "use_system_fonts" entries) := by
  rw [ofEntries_eq] at h
  obtain ⟨backend, hbackend, h⟩ := bind_ok h
  obtain ⟨executable, -, h⟩ := bind_ok h
  obtain ⟨fonts, -, h⟩ := bind_ok h
  cases h
  exact ⟨hbackend, rfl, rfl⟩

/-- A switch without its option changes exactly if the option is there and null. -/
theorem switch_nulled_iff {keys : List String} {entries : List (Key × Value)} {key : String}
    {on : Bool} (h : on = switchOf (lookup? key (without keys entries))) :
    (if key ∈ keys then false else on) = on ↔ key ∉ keys :=
  ite_meaning_eq_iff (fun v => (.ok (switchOf v) : Except ConfigFault Bool)) rfl
    Bool.false_ne_true (congrArg Except.ok h.symm)

/-- Settings without some keys stay the same where these are null exactly if the backend and the
switches are not among them. -/
theorem nulled_eq_self_iff {keys : List String} {entries : List (Key × Value)} {version : String}
    {s : CompileSettings} (h : ofEntries (without keys entries) version = .ok s) :
    s.nulled keys = s ↔
      "backend" ∉ keys ∧ "optimize_output" ∉ keys ∧ "use_system_fonts" ∉ keys := by
  obtain ⟨hbackend, hoptimize, hfonts⟩ := ofEntries_eq_ok h
  have hnone : Backend.none ≠ .bundled := nofun
  rw [← ite_meaning_eq_iff backendOf rfl hnone hbackend, ← switch_nulled_iff hoptimize,
    ← switch_nulled_iff hfonts]
  cases s
  simp only [nulled, mk.injEq, true_and, and_true]

/-- A section either is a mapping or has no keys that are null. -/
theorem map_or_nil {v : Value} {keys : List String} (h : ∀ key ∈ keys, v.get? key = some .null) :
    (∃ entries, v = .map entries) ∨ keys = [] ∧ v.stripped keys = v := by
  have hnil (hv : ∀ key, v.get? key = none) : keys = [] := by
    refine List.eq_nil_iff_forall_not_mem.mpr fun key hkey => ?_
    have hnull := h key hkey
    rw [hv key] at hnull
    cases hnull
  cases v with
  | map entries => exact .inl ⟨entries, rfl⟩
  | scalar s => exact .inr ⟨hnil fun _ => rfl, rfl⟩
  | list items => exact .inr ⟨hnil fun _ => rfl, rfl⟩

/-- With no keys that are null, the settings are as they are. -/
theorem nulled_nil (s : CompileSettings) : s.nulled [] = s := rfl

/-- The same holds of a section that is no mapping, in which no key is null. -/
theorem ofValue_of_areNull {v : Value} {keys : List String}
    (h : ∀ key ∈ keys, v.get? key = some .null) (version : String) :
    ofValue v version = nulled keys <$> ofValue (v.stripped keys) version := by
  obtain ⟨entries, rfl⟩ | ⟨rfl, hv⟩ := map_or_nil h
  · exact ofEntries_of_areNull h version
  · rw [hv]
    cases ofValue v version <;> rfl

/-- Null keys make no difference unless they are the backend or a switch. -/
theorem nulled_eq_self_iff_of_ofValue {v : Value} {keys : List String} {version : String}
    {s : CompileSettings} (h : ∀ key ∈ keys, v.get? key = some .null)
    (hs : ofValue (v.stripped keys) version = .ok s) :
    s.nulled keys = s ↔
      "backend" ∉ keys ∧ "optimize_output" ∉ keys ∧ "use_system_fonts" ∉ keys := by
  obtain ⟨entries, rfl⟩ | ⟨rfl, -⟩ := map_or_nil h
  · exact nulled_eq_self_iff hs
  · simp [nulled_nil]

end CompileSettings

namespace BuildConfig

/-- The optional keys of a configuration. -/
def optionalKeys : List String :=
  ["version", "authors", "source_dir", "build_dir", "debug_dir", "source_url", "strict_links",
    "compile"]

/-- The entries of a configuration without some keys, and without others in its section for the
compiler. -/
def reduced (top inner : List String) (entries : List (Key × Value)) : List (Key × Value) :=
  strippedAt "compile" inner (without top entries)

/-- What a configuration becomes where some keys are null and not absent. -/
def nulled (top inner : List String) (c : BuildConfig) : BuildConfig :=
  { c with
    sourceDir := if "source_dir" ∈ top then c.projectRoot.below (.ofString "None") else c.sourceDir
    buildDir := if "build_dir" ∈ top then c.projectRoot.below (.ofString "None") else c.buildDir
    compile := c.compile.nulled inner }

/-- Some keys of a configuration, and some of its section for the compiler, are optional and
null. -/
structure OptionsAreNull (top inner : List String) (entries : List (Key × Value)) : Prop where
  top_optional : ∀ key ∈ top, key ∈ optionalKeys
  inner_optional : ∀ key ∈ inner, key ∈ CompileSettings.optionalKeys
  top_null : ∀ key ∈ top, lookup? key entries = some .null
  inner_null : ∀ key ∈ inner, ((lookup? "compile" entries).bind fun v => v.get? key) = some .null

variable {root : Location} {env : Option String} {top inner : List String}
  {entries : List (Key × Value)}

/-- Reducing leaves the other keys at the top as they are. -/
theorem lookup?_reduced {key : String} (h : key ≠ "compile") :
    lookup? key (reduced top inner entries) = lookup? key (without top entries) := by
  rw [reduced, lookup?_strippedAt]
  simp only [if_neg h, Option.map_id_fun', id]

/-- The section for the compiler, which counts as null where it is absent. -/
def compileSection (entries : List (Key × Value)) : Value := (lookup? "compile" entries).getD .null

/-- The section for the compiler is stripped with the configuration. -/
theorem OptionsAreNull.compileSection_reduced (h : OptionsAreNull top inner entries) :
    compileSection (reduced top inner entries) = (compileSection entries).stripped inner := by
  rw [compileSection, compileSection, reduced, lookup?_strippedAt, lookup?_without]
  by_cases hmem : "compile" ∈ top
  · rw [if_pos hmem, h.top_null _ hmem]
    rfl
  · rw [if_neg hmem]
    cases lookup? "compile" entries <;> rfl

/-- The null keys of the configuration are null in the section for the compiler. -/
theorem OptionsAreNull.compileSection_null (h : OptionsAreNull top inner entries) :
    ∀ key ∈ inner, (compileSection entries).get? key = some .null := by
  intro key hkey
  have hnull := h.inner_null key hkey
  rw [compileSection]
  cases hsection : lookup? "compile" entries with
  | none => rw [hsection] at hnull; cases hnull
  | some v => rw [hsection] at hnull; exact hnull

/-- The name of the site that an option gives. -/
def siteOf (v : Option Value) : Except ConfigFault String :=
  (textOption v).bind fun name => name.elim (.error .missingSitename) .ok

/-- The authors that an option gives, once it has been tried as a list. -/
def authorsOf (v : Option Value) (listed : Option String) : Except ConfigFault String :=
  listed.elim (plainAuthors v) .ok

/-- Each option is read by itself. -/
theorem ofEntries_eq (root : Location) (env : Option String) (entries : List (Key × Value)) :
    ofEntries root env entries =
      (do
        let sitename ← siteOf (lookup? "sitename" entries)
        let list ← pageList (lookup? "pages" entries)
        let version ← textOption (lookup? "version" entries)
        let listed ← listedAuthors (lookup? "authors" entries)
        let pages ← flattenPages 1 list
        let sourceDir ← directory root "src" (lookup? "source_dir" entries)
        let buildDir ← directory root "build" (lookup? "build_dir" entries)
        let authors ← authorsOf (lookup? "authors" entries) listed
        let compile ←
          CompileSettings.ofValue (compileSection entries) (version.getD (env.getD ""))
        let debugDir ← textOption (lookup? "debug_dir" entries)
        let sourceUrl ← textOption (lookup? "source_url" entries)
        .ok
          { sitename, pages, sourceDir, buildDir, authors, compile, sourceUrl
            version := version.getD (env.getD "")
            debugDir := debugDir.map fun d => root.below (.ofString d)
            strictLinks := ((lookup? "strict_links" entries).map isFilled).getD false
            projectRoot := root }) := by
  dsimp only [ofEntries, siteOf]
  cases textOption (lookup? "sitename" entries) with
  | error f => rfl
  | ok name =>
    cases name with
    | none => rfl
    | some name =>
      cases pageList (lookup? "pages" entries) with
      | error f => rfl
      | ok list =>
        cases textOption (lookup? "version" entries) with
        | error f => rfl
        | ok version =>
          cases listedAuthors (lookup? "authors" entries) with
          | error f => rfl
          | ok listed =>
            cases listed <;> rfl

/-- The name of the site and the page list are no options. -/
theorem OptionsAreNull.lookup?_of_not_optional (h : OptionsAreNull top inner entries) {key : String}
    (hkey : key ∉ optionalKeys) : lookup? key entries = lookup? key (without top entries) := by
  rw [lookup?_without, if_neg fun hmem => hkey (h.top_optional key hmem)]

/-- A configuration with options that are null is the one without them, up to the directories, the
backend and the switches among them. -/
theorem OptionsAreNull.ofEntries_nulled (h : OptionsAreNull top inner entries) :
    ofEntries root env entries =
      nulled top inner <$> ofEntries root env (reduced top inner entries) := by
  have hsitename := h.lookup?_of_not_optional (show "sitename" ∉ optionalKeys by decide)
  have hpages := h.lookup?_of_not_optional (show "pages" ∉ optionalKeys by decide)
  have hnull : AreNull top entries := h.top_null
  have hversion := hnull.read_without textOption rfl "version"
  have hlisted := hnull.read_without listedAuthors rfl "authors"
  have hauthors := hnull.read_without plainAuthors rfl "authors"
  have hsource := hnull.read_without_of_ok (directory root "src") rfl rfl "source_dir"
  have hbuild := hnull.read_without_of_ok (directory root "build") rfl rfl "build_dir"
  have hdebug := hnull.read_without textOption rfl "debug_dir"
  have hurl := hnull.read_without textOption rfl "source_url"
  have hstrict := hnull.read_without (fun v => (v.map isFilled).getD false) rfl "strict_links"
  have hcompile := CompileSettings.ofValue_of_areNull h.compileSection_null
  rw [← h.compileSection_reduced] at hcompile
  simp (disch := decide) only [ofEntries_eq, authorsOf, lookup?_reduced, hsitename, hpages,
    hversion, hlisted, hauthors, hsource, hbuild, hdebug, hurl, hstrict, hcompile, map_bind,
    bind_map_left]
  rfl

/-- What an option says stands in the configuration. -/
theorem ofEntries_eq_ok {c : BuildConfig} (h : ofEntries root env entries = .ok c) :
    c.projectRoot = root ∧
      directory root "src" (lookup? "source_dir" entries) = .ok c.sourceDir ∧
      directory root "build" (lookup? "build_dir" entries) = .ok c.buildDir ∧
      ∃ version, CompileSettings.ofValue (compileSection entries) version = .ok c.compile := by
  rw [ofEntries_eq] at h
  obtain ⟨sitename, -, h⟩ := bind_ok h
  obtain ⟨list, -, h⟩ := bind_ok h
  obtain ⟨version, -, h⟩ := bind_ok h
  obtain ⟨listed, -, h⟩ := bind_ok h
  obtain ⟨pages, -, h⟩ := bind_ok h
  obtain ⟨sourceDir, hsource, h⟩ := bind_ok h
  obtain ⟨buildDir, hbuild, h⟩ := bind_ok h
  obtain ⟨authors, -, h⟩ := bind_ok h
  obtain ⟨compile, hcompile, h⟩ := bind_ok h
  obtain ⟨debugDir, -, h⟩ := bind_ok h
  obtain ⟨sourceUrl, -, h⟩ := bind_ok h
  cases h
  exact ⟨rfl, hsource, hbuild, _, hcompile⟩

/-- No directory is called `None` by default. -/
theorem below_none_ne (root : Location) :
    root.below (.ofString "None") ≠ root.below (.ofString "src") ∧
      root.below (.ofString "None") ≠ root.below (.ofString "build") := by
  have hnone : Location.ofString "None" = ⟨"", ["None"]⟩ := by decide
  have hsource : Location.ofString "src" = ⟨"", ["src"]⟩ := by decide
  have hbuild : Location.ofString "build" = ⟨"", ["build"]⟩ := by decide
  rw [hnone, hsource, hbuild]
  simp [Location.below]

/-- A configuration without some options stays the same where these are null exactly if the
directories, the backend and the switches are not among them. -/
theorem OptionsAreNull.nulled_eq_self_iff (h : OptionsAreNull top inner entries) {c : BuildConfig}
    (hc : ofEntries root env (reduced top inner entries) = .ok c) :
    c.nulled top inner = c ↔
      ("source_dir" ∉ top ∧ "build_dir" ∉ top) ∧
        "backend" ∉ inner ∧ "optimize_output" ∉ inner ∧ "use_system_fonts" ∉ inner := by
  obtain ⟨hroot, hsource, hbuild, version, hcompile⟩ := ofEntries_eq_ok hc
  rw [h.compileSection_reduced] at hcompile
  rw [lookup?_reduced (by decide)] at hsource hbuild
  obtain ⟨hne_source, hne_build⟩ := below_none_ne root
  rw [← CompileSettings.nulled_eq_self_iff_of_ofValue h.compileSection_null hcompile,
    ← ite_meaning_eq_iff (directory root "src") rfl hne_source hsource,
    ← ite_meaning_eq_iff (directory root "build") rfl hne_build hbuild, ← hroot]
  cases c
  simp only [nulled, mk.injEq, true_and, and_true, and_assoc]

/-- A configuration with options that are null is loaded as the one without them, and fails as that
one does, up to the directories, the backend and the switches among them: a directory that is null
is the one called `None`, a backend that is null is the one called none, and a switch that is null
is off. The two are the same exactly if loading fails or no such option is null. -/
theorem null_options_absent_iff (root : Location) (env : Option String) {top inner : List String}
    {entries : List (Key × Value)} (h : OptionsAreNull top inner entries) :
    ofValue root env (.map entries) =
        nulled top inner <$> ofValue root env (.map (reduced top inner entries)) ∧
      (ofValue root env (.map entries) = ofValue root env (.map (reduced top inner entries)) ↔
        (∃ f, ofValue root env (.map (reduced top inner entries)) = .error f) ∨
          ("source_dir" ∉ top ∧ "build_dir" ∉ top) ∧
            "backend" ∉ inner ∧ "optimize_output" ∉ inner ∧ "use_system_fonts" ∉ inner) := by
  have hnulled : ofValue root env (.map entries) =
      nulled top inner <$> ofValue root env (.map (reduced top inner entries)) :=
    h.ofEntries_nulled
  refine ⟨hnulled, ?_⟩
  rw [hnulled]
  cases hreduced : ofValue root env (.map (reduced top inner entries)) with
  | error f => exact iff_of_true rfl (.inl ⟨f, rfl⟩)
  | ok c =>
    rw [← h.nulled_eq_self_iff hreduced]
    exact ⟨fun hsame => .inr (Except.ok.inj hsame),
      fun hsame => congrArg Except.ok (hsame.resolve_left nofun)⟩

/-- A configuration with a version, a backend and an executable that are null. -/
def bareOptions : List (Key × Value) :=
  [(.text "sitename", .text "Docs"), (.text "pages", .list [.text "a.md"]),
    (.text "version", .null),
    (.text "compile", .map [(.text "backend", .null), (.text "typst", .null)])]

/-- Of a null version, program and backend, the backend makes a difference. -/
theorem null_options_absent_iff_bareOptions :
    OptionsAreNull ["version"] ["backend", "typst"] bareOptions ∧
      ofValue ⟨"", []⟩ none (.map bareOptions) =
        nulled ["version"] ["backend", "typst"] <$>
          ofValue ⟨"", []⟩ none (.map (reduced ["version"] ["backend", "typst"] bareOptions)) ∧
      ofValue ⟨"", []⟩ none (.map bareOptions) ≠
        ofValue ⟨"", []⟩ none (.map (reduced ["version"] ["backend", "typst"] bareOptions)) := by
  have h : OptionsAreNull ["version"] ["backend", "typst"] bareOptions :=
    ⟨by decide, by decide, List.forall_mem_singleton.mpr rfl,
      List.forall_mem_cons.mpr ⟨rfl, List.forall_mem_singleton.mpr rfl⟩⟩
  obtain ⟨hnulled, hsame⟩ := null_options_absent_iff ⟨"", []⟩ none h
  refine ⟨h, hnulled, fun heq => ?_⟩
  rcases hsame.mp heq with ⟨f, hf⟩ | ⟨-, hbackend, -⟩
  · cases hf
  · exact hbackend (by decide)

/-- A configuration whose source directory is null. -/
def bareSource : List (Key × Value) :=
  [(.text "sitename", .text "D"), (.text "pages", .list [.text "a.md"]),
    (.text "source_dir", .null)]

/-- Where the source directory is null, the sources are looked for in the directory `None`, and not
in the default one. -/
theorem null_directory_is_called_none :
    OptionsAreNull ["source_dir"] [] bareSource ∧
      sourceDir <$> ofValue ⟨"", []⟩ none (.map bareSource) = .ok ⟨"", ["None"]⟩ ∧
      sourceDir <$> ofValue ⟨"", []⟩ none (.map (reduced ["source_dir"] [] bareSource)) =
        .ok ⟨"", ["src"]⟩ := by
  refine ⟨⟨by decide, by simp, List.forall_mem_singleton.mpr rfl, by simp⟩, rfl, rfl⟩

end BuildConfig

end Folio
