import CatFactory.Foundation.Regex
import CatFactory.Foundation.Text
import CatFactory.Policy.Merge

/-!
# The class of a change

A pull request is classed by the paths it changed, the riskiest path deciding.
The class feeds the merge rules, so executable source must not be taken for
something a rule merges unread.
-/

namespace CatFactory
namespace Policy

open Foundation

variable {path : String}

attribute [local instance] lawfulBEq_chars

def CHANGE_CLASS_RANK : ChangeClass -> Int
  | .unknown => -1
  | .docs => 0
  | .test => 1
  | .dependency => 2
  | .config => 3
  | .source => 4
  | .schema => 5

/-!
## The rule tables
-/

def DEPENDENCY_BASENAMES : List String :=
  ["package.json", "package-lock.json", "pnpm-lock.yaml", "yarn.lock", "bun.lock", "bun.lockb",
    "npm-shrinkwrap.json", "cargo.toml", "cargo.lock", "go.mod", "go.sum", "requirements.txt",
    "requirements-dev.txt", "poetry.lock", "pyproject.toml", "pipfile", "pipfile.lock", "uv.lock",
    "gemfile", "gemfile.lock", "composer.json", "composer.lock", "pom.xml", "build.gradle",
    "build.gradle.kts", "gradle.lockfile", "mix.lock"]

def DOC_EXTENSIONS : List String :=
  [".md", ".mdx", ".markdown", ".rst", ".txt", ".adoc"]

def DOC_BASENAMES : List String :=
  ["readme", "license", "licence", "changelog", "contributing", "authors", "notice", "codeowners"]

def CONFIG_BASENAMES : List String :=
  ["dockerfile", "containerfile", "docker-compose.yml", "docker-compose.yaml", "compose.yml",
    "compose.yaml", ".dockerignore", ".gitignore", ".gitattributes", ".editorconfig", ".npmrc",
    ".nvmrc", ".node-version", "makefile", "justfile", "procfile", "turbo.json", "knip.jsonc",
    "renovate.json", "wrangler.toml", "wrangler.jsonc", "pnpm-workspace.yaml", "lefthook.yml"]

def CONFIG_SEGMENTS : List String :=
  [".github", ".gitlab", ".circleci", ".husky", ".vscode", ".idea", ".changeset", "k8s",
    "kubernetes", "helm", "terraform", "deploy", "charts"]

def TEST_SEGMENTS : List String :=
  ["test", "tests", "__tests__", "__mocks__", "__snapshots__", "e2e", "fixtures", "testdata"]

def SCHEMA_SEGMENTS : List String :=
  ["migrations", "migration", "drizzle", "alembic"]

def DOC_SEGMENTS : List String :=
  ["docs", "doc", "documentation"]

/-- Extensions of executable program source. -/
def SOURCE_EXTENSIONS : List String :=
  [".ts", ".tsx", ".mts", ".cts", ".js", ".jsx", ".mjs", ".cjs", ".vue", ".svelte", ".py", ".rb",
    ".go", ".rs", ".java", ".kt", ".kts", ".scala", ".cs", ".c", ".h", ".cc", ".cpp", ".hpp",
    ".m", ".mm", ".swift", ".php", ".ex", ".exs", ".erl", ".sh", ".bash", ".zsh", ".ps1"]

/-!
## Paths
-/

/-- The path with slashes for separators. -/
def normalizedPath (path : String) : List Char :=
  path.toList.map fun c => if c = '\\' then '/' else c

/-- The normalized path in lower case, as the rules read it. -/
def lowerPath (path : String) : List Char :=
  (normalizedPath path).flatMap lowerChar

def afterLastSlash (path : List Char) : List Char :=
  (path.reverse.takeWhile (· ≠ '/')).reverse

def basenameOf (path : String) : List Char :=
  (afterLastSlash (normalizedPath path)).flatMap lowerChar

def hasSegment (lower : List Char) (names : List String) : Bool :=
  names.any fun name => name.toList ∈ lower.splitOn '/'

def endsWith (text : List Char) (ending : String) : Bool :=
  ending.toList.isSuffixOf text

def includesName (names : List String) (base : List Char) : Bool :=
  names.any fun name => name.toList = base

def isSourceExtension (lower : List Char) : Bool :=
  SOURCE_EXTENSIONS.any (endsWith lower)

/-!
## The patterns
-/

def isLowerLetter (c : Char) : Bool :=
  'a' ≤ c && c ≤ 'z'

def isLineTerminator (c : Char) : Bool :=
  c = Char.ofNat 0x0A || c = Char.ofNat 0x0D || c = Char.ofNat 0x2028 || c = Char.ofNat 0x2029

def word (text : String) : Regex Char :=
  Regex.lit text.toList

def wordOf (words : List String) : Regex Char :=
  Regex.any (words.map word)

def letterOf (letters : String) : Regex Char :=
  Regex.oneOf letters.toList

/-- `(^|\/)` -/
def startOrSlash : Regex Char :=
  Regex.alt Regex.start (word "/")

/-- `/(^|\/)db\/schema(\.[a-z]+)?\.[cm]?ts$/` -/
def schemaFile : Regex Char :=
  Regex.all [startOrSlash, word "db/schema",
    Regex.optional (Regex.all [word ".", Regex.many isLowerLetter 1 none]),
    word ".", Regex.optional (letterOf "cm"), word "ts", Regex.finish]

/-- `/\.(test|spec)(-d)?\.[cm]?[jt]sx?$/` -/
def testFile : Regex Char :=
  Regex.all [word ".", wordOf ["test", "spec"], Regex.optional (word "-d"), word ".",
    Regex.optional (letterOf "cm"), letterOf "jt", word "s", Regex.optional (word "x"),
    Regex.finish]

/-- `/_test\.(go|py|rb)$/` -/
def suffixedTestFile : Regex Char :=
  Regex.all [word "_test.", wordOf ["go", "py", "rb"], Regex.finish]

/-- `/(^|\/)test_[^/]+\.py$/` -/
def prefixedTestFile : Regex Char :=
  Regex.all [startOrSlash, word "test_", Regex.many (· ≠ '/') 1 none, word ".py", Regex.finish]

/-- `/\.[^.]+$/` -/
def lastExtension : Regex Char :=
  Regex.all [word ".", Regex.many (· ≠ '.') 1 none, Regex.finish]

/-- `/(^|\/)(i18n|locales|lang|translations)\/.*\.(json|ya?ml)$/` -/
def messageCatalog : Regex Char :=
  Regex.all [startOrSlash, wordOf ["i18n", "locales", "lang", "translations"], word "/",
    Regex.many (!isLineTerminator ·) 0 none, word ".",
    Regex.any [word "json", Regex.all [word "y", Regex.optional (word "a"), word "ml"]],
    Regex.finish]

/-- `/(^|\/)(tsconfig|jsconfig)[^/]*\.json$/` -/
def compilerConfigFile : Regex Char :=
  Regex.all [startOrSlash, wordOf ["tsconfig", "jsconfig"], Regex.many (· ≠ '/') 0 none,
    word ".json", Regex.finish]

/-- `/(^|\/)\.?(oxlintrc|eslintrc|prettierrc|babelrc|swcrc)[^/]*$/` -/
def toolRcFile : Regex Char :=
  Regex.all [startOrSlash, Regex.optional (word "."),
    wordOf ["oxlintrc", "eslintrc", "prettierrc", "babelrc", "swcrc"],
    Regex.many (· ≠ '/') 0 none, Regex.finish]

/-- `/\.config\.[cm]?[jt]s$/` -/
def scriptConfigFile : Regex Char :=
  Regex.all [word ".config.", Regex.optional (letterOf "cm"), letterOf "jt", word "s",
    Regex.finish]

/-- `/\.(tf|tfvars)$/` -/
def terraformFile : Regex Char :=
  Regex.all [word ".", wordOf ["tf", "tfvars"], Regex.finish]

/-!
## Classification
-/

def isSchemaPath (path : String) : Bool :=
  let lower := lowerPath path
  endsWith lower ".sql" || hasSegment lower SCHEMA_SEGMENTS || schemaFile.matches lower

def isTestPath (path : String) : Bool :=
  let lower := lowerPath path
  testFile.matches lower || suffixedTestFile.matches lower || prefixedTestFile.matches lower ||
    hasSegment lower TEST_SEGMENTS

def isDependencyManifest (path : String) : Bool :=
  includesName DEPENDENCY_BASENAMES (basenameOf path)

/-- The base name, its last extension taken off, is one of a document's. -/
def hasDocBasename (path : String) : Bool :=
  includesName DOC_BASENAMES (lastExtension.replaceFirst (fun _ => []) (basenameOf path))

def isDocPath (path : String) : Bool :=
  let lower := lowerPath path
  let base := basenameOf path
  DOC_EXTENSIONS.any (endsWith base) || hasDocBasename path ||
    (!isSourceExtension lower && hasSegment lower DOC_SEGMENTS) || messageCatalog.matches lower

def isConfigPath (path : String) : Bool :=
  let lower := lowerPath path
  includesName CONFIG_BASENAMES (basenameOf path) ||
    (!isSourceExtension lower && hasSegment lower CONFIG_SEGMENTS) ||
    compilerConfigFile.matches lower || toolRcFile.matches lower ||
    scriptConfigFile.matches lower || terraformFile.matches lower

/-- The rules in the source's order, the most specific first. -/
def classifyChangedPath (path : String) : ChangeClass :=
  if isSchemaPath path then .schema
  else if isTestPath path then .test
  else if isDependencyManifest path then .dependency
  else if isDocPath path then .docs
  else if isConfigPath path then .config
  else .source

structure ChangeClassification where
  changeClass : ChangeClass
  fileCount : Nat
deriving DecidableEq

def classifyChangedFiles (paths : List String) : ChangeClassification :=
  paths.foldl
    (fun winner path =>
      if trim path = "" then winner
      else
        let cls := classifyChangedPath path
        { changeClass :=
            if CHANGE_CLASS_RANK winner.changeClass < CHANGE_CLASS_RANK cls then cls
            else winner.changeClass
          fileCount := winner.fileCount + 1 })
    ⟨.unknown, 0⟩

/-!
## Endings
-/

theorem afterLastSlash_split (path : List Char) :
    exists front, path = front ++ afterLastSlash path ∧
      (front = [] ∨ exists before, front = before ++ ['/']) := by
  induction path using List.reverseRecOn with
  | nil => exact ⟨[], rfl, Or.inl rfl⟩
  | append_singleton rest c ih =>
      by_cases hc : c = '/'
      · subst hc
        refine ⟨rest ++ ['/'], ?_, Or.inr ⟨rest, rfl⟩⟩
        simp [afterLastSlash]
      · rcases ih with ⟨front, hrest, hfront⟩
        refine ⟨front, ?_, hfront⟩
        have hlast : afterLastSlash (rest ++ [c]) = afterLastSlash rest ++ [c] := by
          simp [afterLastSlash, hc]
        rw [hlast, ← List.append_assoc, ← hrest]

theorem basenameOf_split (path : String) :
    exists front, lowerPath path = front ++ basenameOf path ∧
      (front = [] ∨ exists before, front = before ++ ['/']) := by
  rcases afterLastSlash_split (normalizedPath path) with ⟨front, hpath, hfront⟩
  refine ⟨front.flatMap lowerChar, ?_, ?_⟩
  · rw [lowerPath, basenameOf, ← List.flatMap_append, ← hpath]
  · rcases hfront with rfl | ⟨before, rfl⟩
    · exact Or.inl rfl
    · apply Or.inr
      refine ⟨before.flatMap lowerChar, ?_⟩
      rw [List.flatMap_append, List.flatMap_singleton]
      rfl

theorem basenameOf_suffix (path : String) : basenameOf path <:+ lowerPath path := by
  rcases basenameOf_split path with ⟨front, hlower, _⟩
  exact ⟨front, hlower.symm⟩

/-- An ending of the path that holds no slash is an ending of the base name. -/
theorem suffix_basenameOf {t : List Char} (ht : t <:+ lowerPath path)
    (hslash : '/' ∉ t) : t <:+ basenameOf path := by
  rcases basenameOf_split path with ⟨front, hlower, hfront⟩
  rcases List.suffix_or_suffix_of_suffix ht ⟨front, hlower.symm⟩ with h | ⟨u, hu⟩
  · exact h
  · rcases hfront with rfl | ⟨before, rfl⟩
    · rwa [hlower] at ht
    · rcases ht with ⟨v, hv⟩
      rw [← hu, hlower, ← List.append_assoc] at hv
      have hends := List.append_cancel_right hv
      rcases List.eq_nil_or_concat u with rfl | ⟨w, c, rfl⟩
      · rw [← hu]
        exact List.suffix_rfl
      · rw [List.concat_eq_append, ← List.append_assoc] at hends
        have hc := (List.append_inj' hends rfl).2
        cases hc
        exact absurd (hu ▸ by simp) hslash

/-- Neither of two texts ends the other. -/
def endingsApart (a b : List Char) : Bool :=
  !(a.isSuffixOf b) && !(b.isSuffixOf a)

theorem not_source_of_suffix {lower t : List Char} (ht : t <:+ lower)
    (hapart : SOURCE_EXTENSIONS.all fun ext => endingsApart ext.toList t) :
    isSourceExtension lower = false := by
  rw [isSourceExtension, List.any_eq_false]
  intro ext hext hends
  rw [endsWith, List.isSuffixOf_iff_suffix] at hends
  have hext' := List.all_eq_true.mp hapart ext hext
  simp only [endingsApart, Bool.and_eq_true, Bool.not_eq_true', ← Bool.not_eq_true,
    List.isSuffixOf_iff_suffix] at hext'
  cases List.suffix_or_suffix_of_suffix hends ht with
  | inl h => exact hext'.1 h
  | inr h => exact hext'.2 h

/-- A file whose name matches `*.config.*`. -/
def ConfigNamed (path : String) : Prop :=
  ".config.".toList <:+: basenameOf path

/-- Executable source that no more specific rule accounts for. -/
structure PlainSource (path : String) : Prop where
  source : isSourceExtension (lowerPath path) = true
  schema : isSchemaPath path = false
  test : isTestPath path = false
  manifest : isDependencyManifest path = false
  config : ¬ ConfigNamed path

theorem endsOn_messageCatalog : EndsOn messageCatalog ["json".toList, "ml".toList] := by
  apply EndsOn.seq
  apply EndsOn.seq
  apply EndsOn.seq
  apply EndsOn.seq
  apply EndsOn.seq
  apply EndsOn.alt
  · exact (EndsOn.lit finishes_finish _).mono (by simp)
  · apply EndsOn.assoc
    apply EndsOn.seq
    apply EndsOn.assoc
    apply EndsOn.seq
    apply EndsOn.assoc
    exact (EndsOn.lit (finishes_empty_seq finishes_finish) _).mono (by simp)

theorem endsOn_compilerConfigFile : EndsOn compilerConfigFile [".json".toList] := by
  apply EndsOn.seq
  apply EndsOn.seq
  apply EndsOn.seq
  exact EndsOn.lit finishes_finish _

theorem endsOn_terraformFile : EndsOn terraformFile ["tf".toList, "tfvars".toList] := by
  apply EndsOn.seq
  apply EndsOn.alt
  · exact (EndsOn.lit finishes_finish _).mono (by simp)
  · exact (EndsOn.lit finishes_finish _).mono (by simp)

theorem not_source_of_matches {r : Regex Char} {texts : List (List Char)} (h : EndsOn r texts)
    {lower : List Char} (hmatches : r.matches lower = true)
    (hapart : texts.all fun t => SOURCE_EXTENSIONS.all fun ext => endingsApart ext.toList t) :
    isSourceExtension lower = false := by
  rcases h.suffix hmatches with ⟨t, ht, hsuffix⟩
  exact not_source_of_suffix hsuffix (List.all_eq_true.mp hapart t ht)

theorem not_source_of_name {names : List String}
    (hname : includesName names (basenameOf path) = true)
    (hapart : names.all fun name =>
      SOURCE_EXTENSIONS.all fun ext => endingsApart ext.toList name.toList) :
    isSourceExtension (lowerPath path) = false := by
  rw [includesName, List.any_eq_true] at hname
  rcases hname with ⟨name, hmem, hname⟩
  rw [decide_eq_true_eq] at hname
  apply not_source_of_suffix (basenameOf_suffix path)
  rw [← hname]
  exact List.all_eq_true.mp hapart name hmem

/-- The code's pattern for such files finds only files named `*.config.*`. -/
theorem configNamed_of_scriptConfigFile
    (h : scriptConfigFile.matches (lowerPath path) = true) : ConfigNamed path := by
  rcases exists_run_of_test h with ⟨front, back, hlower, hrun⟩
  rcases List.exists_mem_of_ne_nil _ hrun with ⟨m, hm⟩
  have hback := run_text hm
  rcases mem_run_seq.mp hm with ⟨dotted, hdotted, _, hafter, rfl⟩
  rcases mem_run_seq.mp hafter with ⟨kind, hkind, _, hafter', rfl⟩
  rcases mem_run_seq.mp hafter' with ⟨letter, hletter, _, hafter'', rfl⟩
  rcases mem_run_seq.mp hafter'' with ⟨script, hscript, last, hlast, rfl⟩
  rcases finishes_finish _ _ last hlast with ⟨hlastText, hlastRest⟩
  have hkindText : '/' ∉ kind.text := by
    cases run_optional hkind with
    | inl hone =>
        rcases run_oneOf hone with ⟨c, hc, htext⟩
        rw [htext, List.mem_singleton]
        rintro rfl
        exact absurd hc (by decide)
    | inr hnil => simp [hnil]
  have hletterText : '/' ∉ letter.text := by
    rcases run_oneOf hletter with ⟨c, hc, htext⟩
    rw [htext, List.mem_singleton]
    rintro rfl
    exact absurd hc (by decide)
  have hends : back = ".config.".toList ++ (kind.text ++ (letter.text ++ "s".toList)) := by
    rw [hback]
    show (dotted.text ++ (kind.text ++ (letter.text ++ (script.text ++ last.text)))) ++
      last.rest = _
    rw [hlastText, hlastRest, run_lit hdotted, run_lit hscript, List.append_nil, List.append_nil]
  have hslash : '/' ∉ back := by
    rw [hends]
    simp only [List.mem_append, not_or]
    exact ⟨by decide, hkindText, hletterText, by decide⟩
  have hsuffix : back <:+ basenameOf path := suffix_basenameOf ⟨front, hlower.symm⟩ hslash
  have hstarts : ".config.".toList <+: back := ⟨_, hends.symm⟩
  exact hstarts.isInfix.trans hsuffix.isInfix

theorem doc_of_plainSource (h : PlainSource path) :
    isDocPath path = hasDocBasename path := by
  have hext : DOC_EXTENSIONS.any (endsWith (basenameOf path)) = false := by
    rw [List.any_eq_false]
    intro ext hext hends
    rw [endsWith, List.isSuffixOf_iff_suffix] at hends
    have hapart : DOC_EXTENSIONS.all fun t =>
        SOURCE_EXTENSIONS.all fun ext => endingsApart ext.toList t.toList := by decide +kernel
    have hnot := not_source_of_suffix (hends.trans (basenameOf_suffix path))
      (List.all_eq_true.mp hapart ext hext)
    rw [h.source] at hnot
    cases hnot
  have hcatalog : messageCatalog.matches (lowerPath path) = false := by
    by_contra hmatches
    have hnot := not_source_of_matches endsOn_messageCatalog (Bool.not_eq_false _ ▸ hmatches)
      (by decide +kernel)
    rw [h.source] at hnot
    cases hnot
  simp [isDocPath, hext, hcatalog, h.source]

theorem config_of_plainSource (h : PlainSource path) :
    isConfigPath path = toolRcFile.matches (lowerPath path) := by
  have hname : includesName CONFIG_BASENAMES (basenameOf path) = false := by
    by_contra hincludes
    have hnot := not_source_of_name (Bool.not_eq_false _ ▸ hincludes) (by decide +kernel)
    rw [h.source] at hnot
    cases hnot
  have hcompiler : compilerConfigFile.matches (lowerPath path) = false := by
    by_contra hmatches
    have hnot := not_source_of_matches endsOn_compilerConfigFile (Bool.not_eq_false _ ▸ hmatches)
      (by decide +kernel)
    rw [h.source] at hnot
    cases hnot
  have hterraform : terraformFile.matches (lowerPath path) = false := by
    by_contra hmatches
    have hnot := not_source_of_matches endsOn_terraformFile (Bool.not_eq_false _ ▸ hmatches)
      (by decide +kernel)
    rw [h.source] at hnot
    cases hnot
  have hscript : scriptConfigFile.matches (lowerPath path) = false := by
    by_contra hmatches
    exact h.config (configNamed_of_scriptConfigFile (Bool.not_eq_false _ ▸ hmatches))
  simp [isConfigPath, hname, hcompiler, hterraform, hscript, h.source]

/-!
## The riskiest path decides
-/

/-- A path that is not skipped. -/
def NonBlank (path : String) : Prop :=
  trim path ≠ ""

theorem rank_injective : Function.Injective CHANGE_CLASS_RANK := by
  intro a b h
  cases a <;> cases b <;> first | rfl | cases h

/-- No path is classed `unknown`. -/
theorem unknown_lt_classify (path : String) :
    CHANGE_CLASS_RANK .unknown < CHANGE_CLASS_RANK (classifyChangedPath path) := by
  rw [classifyChangedPath]
  repeat' split
  all_goals decide

/-- The class is the highest-ranked of the paths', `unknown` when there is none. -/
structure Highest (paths : List String) (cls : ChangeClass) : Prop where
  reached : cls = .unknown ∨
    exists path, path ∈ paths ∧ NonBlank path ∧ classifyChangedPath path = cls
  bound : forall path, path ∈ paths -> NonBlank path ->
    CHANGE_CLASS_RANK (classifyChangedPath path) ≤ CHANGE_CLASS_RANK cls

theorem classifyChangedFiles_append (paths : List String) (path : String) :
    classifyChangedFiles (paths ++ [path]) =
      if trim path = "" then classifyChangedFiles paths
      else
        { changeClass :=
            if CHANGE_CLASS_RANK (classifyChangedFiles paths).changeClass <
                CHANGE_CLASS_RANK (classifyChangedPath path)
            then classifyChangedPath path
            else (classifyChangedFiles paths).changeClass
          fileCount := (classifyChangedFiles paths).fileCount + 1 } := by
  rw [classifyChangedFiles, List.foldl_append]
  rfl

theorem classifyChangedFiles_highest (paths : List String) :
    Highest paths (classifyChangedFiles paths).changeClass := by
  induction paths using List.reverseRecOn with
  | nil => exact ⟨Or.inl rfl, by simp⟩
  | append_singleton paths path ih =>
      have hkeep : (classifyChangedFiles paths).changeClass = .unknown ∨
          exists other, other ∈ paths ++ [path] ∧ NonBlank other ∧
            classifyChangedPath other = (classifyChangedFiles paths).changeClass := by
        rcases ih.reached with hnone | ⟨other, hother, hblank, hclass⟩
        · exact Or.inl hnone
        · exact Or.inr ⟨other, List.mem_append_left _ hother, hblank, hclass⟩
      rw [classifyChangedFiles_append]
      by_cases hblank : trim path = ""
      · rw [if_pos hblank]
        refine ⟨hkeep, ?_⟩
        intro other hother hother'
        rcases List.mem_append.mp hother with hother | hother
        · exact ih.bound other hother hother'
        · rw [List.mem_singleton.mp hother] at hother'
          exact absurd hblank hother'
      · rw [if_neg hblank]
        by_cases hlt : CHANGE_CLASS_RANK (classifyChangedFiles paths).changeClass <
            CHANGE_CLASS_RANK (classifyChangedPath path)
        · simp only [hlt, if_true]
          constructor
          · exact Or.inr ⟨path, by simp, hblank, rfl⟩
          · intro other hother hother'
            rcases List.mem_append.mp hother with hother | hother
            · exact Int.le_trans (ih.bound other hother hother') (Int.le_of_lt hlt)
            · have heq : other = path := List.mem_singleton.mp hother
              exact Int.le_of_eq (by rw [heq])
        · simp only [hlt, if_false]
          constructor
          · exact hkeep
          · intro other hother hother'
            rcases List.mem_append.mp hother with hother | hother
            · exact ih.bound other hother hother'
            · rw [List.mem_singleton.mp hother]
              exact Int.not_lt.mp hlt

theorem Highest.le {paths more : List String} {cls cls' : ChangeClass} (h : Highest paths cls)
    (h' : Highest more cls') (hsub : paths ⊆ more) :
    CHANGE_CLASS_RANK cls ≤ CHANGE_CLASS_RANK cls' := by
  rcases h.reached with rfl | ⟨path, hpath, hblank, rfl⟩
  · cases cls' <;> decide
  · exact h'.bound path (hsub hpath) hblank

/-- Only a dot is written as a dot in lower case. -/
theorem dot_of_mem_lowerChar {c : Char} (h : '.' ∈ lowerChar c) : c = '.' := by
  rw [lowerChar] at h
  split at h
  · exact absurd h (by decide)
  · split at h
    · exact absurd h (by decide)
    · rw [List.mem_singleton] at h
      unfold Char.toLower at h
      split at h
      · next hupper =>
          have hlow : 65 ≤ c.val.toNat := UInt32.le_iff_toNat_le.mp hupper.1
          have hhigh : c.val.toNat ≤ 90 := UInt32.le_iff_toNat_le.mp hupper.2
          have hval : (46 : UInt32) = c.val + 32 := congrArg Char.val h
          have hnat := congrArg UInt32.toNat hval
          rw [UInt32.toNat_add] at hnat
          simp only [UInt32.reduceToNat] at hnat
          omega
      · exact h.symm

/-- A path with a source extension is not skipped. -/
theorem nonBlank_of_source (h : isSourceExtension (lowerPath path) = true) :
    NonBlank path := by
  intro hblank
  have hspace : forall c, c ∈ path.toList -> isSpace c = true := by
    rcases exists_trimChars_append isSpace path.toList with ⟨front, back, hpath, hfront, hback⟩
    have hnil : trimChars isSpace path.toList = [] := by
      simpa [trim] using congrArg String.toList hblank
    rw [hnil, List.append_nil] at hpath
    intro c hc
    rw [hpath] at hc
    rcases List.mem_append.mp hc with hc | hc
    · exact hfront c hc
    · exact hback c hc
  have hdot : '.' ∈ lowerPath path := by
    rw [isSourceExtension, List.any_eq_true] at h
    rcases h with ⟨ext, hext, hends⟩
    rw [endsWith, List.isSuffixOf_iff_suffix] at hends
    have hdots : SOURCE_EXTENSIONS.all fun ext => '.' ∈ ext.toList := by decide +kernel
    exact hends.subset (of_decide_eq_true (List.all_eq_true.mp hdots ext hext))
  rcases List.mem_flatMap.mp hdot with ⟨c, hc, hlower⟩
  rw [dot_of_mem_lowerChar hlower] at hc
  rcases List.mem_map.mp hc with ⟨d, hd, heq⟩
  have hd' : d = '.' := by
    split at heq
    · exact absurd heq (by decide)
    · exact heq
  exact absurd (hspace d hd) (hd' ▸ by decide)

structure ChangeClassLaw : Prop where
  highest : forall paths, Highest paths (classifyChangedFiles paths).changeClass
  unknown : forall paths, (classifyChangedFiles paths).changeClass = .unknown <->
    forall path, path ∈ paths -> ¬ NonBlank path
  anyOrder : forall paths others, (forall path, path ∈ paths <-> path ∈ others) ->
    (classifyChangedFiles paths).changeClass = (classifyChangedFiles others).changeClass
  monotone : forall paths more, paths ⊆ more ->
    CHANGE_CLASS_RANK (classifyChangedFiles paths).changeClass ≤
      CHANGE_CLASS_RANK (classifyChangedFiles more).changeClass
  source : forall path, PlainSource path -> hasDocBasename path = false ->
    classifyChangedPath path =
      if toolRcFile.matches (lowerPath path) then .config else .source
  notDocs : forall paths path, path ∈ paths -> PlainSource path -> hasDocBasename path = false ->
    (classifyChangedFiles paths).changeClass ≠ .docs

theorem classify_of_plainSource (h : PlainSource path) (hname : hasDocBasename path = false) :
    classifyChangedPath path =
      if toolRcFile.matches (lowerPath path) then .config else .source := by
  rw [classifyChangedPath, h.schema, h.test, h.manifest, doc_of_plainSource h, hname,
    config_of_plainSource h]
  rfl

theorem changeClass_law : ChangeClassLaw where
  highest := classifyChangedFiles_highest
  unknown := by
    intro paths
    have h := classifyChangedFiles_highest paths
    constructor
    · intro hunknown path hpath hblank
      have hle := h.bound path hpath hblank
      rw [hunknown] at hle
      exact absurd (unknown_lt_classify path) (Int.not_lt.mpr hle)
    · intro hblank
      rcases h.reached with hnone | ⟨path, hpath, hnon, _⟩
      · exact hnone
      · exact absurd hnon (hblank path hpath)
  anyOrder := by
    intro paths others hsame
    apply rank_injective
    have h := classifyChangedFiles_highest paths
    have h' := classifyChangedFiles_highest others
    exact Int.le_antisymm (h.le h' fun path => (hsame path).mp)
      (h'.le h fun path => (hsame path).mpr)
  monotone := fun paths more hsub =>
    (classifyChangedFiles_highest paths).le (classifyChangedFiles_highest more) hsub
  source := fun _ => classify_of_plainSource
  notDocs := by
    intro paths path hpath h hname hdocs
    have hle := (classifyChangedFiles_highest paths).bound path hpath (nonBlank_of_source h.source)
    rw [hdocs, classify_of_plainSource h hname] at hle
    split at hle
    · exact absurd hle (by decide)
    · exact absurd hle (by decide)

/-- A linter's rc file is executable source by its extension, and classed `config`. -/
theorem not_source_of_plainSource :
    ¬ forall path, PlainSource path -> classifyChangedPath path = .source := by
  intro h
  have hclass : classifyChangedPath ".eslintrc.cjs" = .config := by decide +kernel
  have hplain : PlainSource ".eslintrc.cjs" := by
    constructor
    · decide +kernel
    · decide +kernel
    · decide +kernel
    · decide +kernel
    · rw [ConfigNamed]
      decide +kernel
  rw [h _ hplain] at hclass
  cases hclass

end Policy
end CatFactory
