import CatFactory.Foundation.RegexLanguage
import CatFactory.Foundation.Scrubbing
import CatFactory.Redaction.Rules

/-!
# Standalone tokens

A standalone token begins at a word boundary, has units of its own class only, and is
read to the end of its class.  Where a replacement is put in the place of a stretch that
begins at a boundary and ends before no letter or digit, no token comes up around it.
-/

namespace CatFactory
namespace Redaction

open Foundation

/-!
## What is put in
-/

/-- What the rules put in the place of a secret. -/
def Stamp (b : List Nat) : Prop :=
  b = REPLACEMENT ∨ b = unitOf ' ' :: REPLACEMENT

/-- A stretch that a rule replaces, after what was read and before what is left. -/
structure SafeCut (read a b rest : List Nat) : Prop where
  stamp : Stamp b
  ne_nil : a ≠ []
  begins : read.head?.any isWordUnit = false ∨ a.head?.any isWordUnit = false
  ends : rest.head?.any isAlphanumeric = false

/-- A text that is no part of a replacement and has no bracket. -/
structure Unstamped (text : List Nat) : Prop where
  brackets : forall u, u ∈ text -> u ≠ unitOf '[' ∧ u ≠ unitOf ']'
  last : text.getLast? ≠ some (unitOf ' ')
  other : exists u, u ∈ text ∧ u ∉ unitOf ' ' :: REPLACEMENT

theorem Unstamped.ne_nil {text : List Nat} (h : Unstamped text) : text ≠ [] := by
  rcases h.other with ⟨u, hu, _⟩
  exact List.ne_nil_of_mem hu

theorem Stamp.subset {b : List Nat} (h : Stamp b) : b ⊆ unitOf ' ' :: REPLACEMENT := by
  rcases h with rfl | rfl
  · exact List.subset_cons_self _ _
  · exact List.Subset.refl _

theorem Stamp.getLast? {b : List Nat} (h : Stamp b) : b.getLast? = some (unitOf ']') := by
  rcases h with rfl | rfl <;> rfl

theorem Stamp.opens {b : List Nat} (h : Stamp b) : unitOf '[' ∈ b := by
  rcases h with rfl | rfl <;> decide

/-- Before its bracket a replacement has a blank at most. -/
theorem Stamp.prefix_eq {b tail : List Nat} (h : Stamp b) (htail : tail ≠ [])
    (hfree : unitOf '[' ∉ tail) (hstarts : tail <+: b) : tail = [unitOf ' '] := by
  have hbracket : forall {tail : List Nat}, unitOf '[' ∉ tail -> tail <+: REPLACEMENT ->
      tail = [] := by
    intro tail hfree hstarts
    cases tail with
    | nil => rfl
    | cons u tail =>
        rcases hstarts with ⟨more, hmore⟩
        have hhead : u = unitOf '[' := (List.cons.inj hmore).1
        rw [hhead] at hfree
        exact absurd List.mem_cons_self hfree
  rcases h with rfl | rfl
  · exact absurd (hbracket hfree hstarts) htail
  · cases tail with
    | nil => exact absurd rfl htail
    | cons u tail =>
        rw [List.cons_prefix_cons] at hstarts
        rw [hbracket (fun hmem => hfree (List.mem_cons_of_mem u hmem)) hstarts.2, hstarts.1]

theorem Stamp.offStamp {b text : List Nat} (hb : Stamp b) (h : Unstamped text) :
    OffStamp b text := by
  rcases h.other with ⟨u, hu, hout⟩
  constructor
  · intro tail htail hsuffix
    constructor
    · intro hstarts
      have hlast : unitOf ']' ∈ tail := by
        rcases hsuffix with ⟨front, rfl⟩
        have hgetLast := hb.getLast?
        rw [List.getLast?_append_of_ne_nil _ htail] at hgetLast
        exact List.mem_of_getLast? hgetLast
      exact (h.brackets _ (hstarts.subset hlast)).2 rfl
    · intro hstarts
      exact hout (hb.subset (hsuffix.subset (hstarts.subset hu)))
  · intro tail htail hsuffix
    have hfree : unitOf '[' ∉ tail := fun hmem => (h.brackets _ (hsuffix.subset hmem)).1 rfl
    constructor
    · intro hstarts
      have hblank := hb.prefix_eq htail hfree hstarts
      rcases hsuffix with ⟨front, rfl⟩
      apply h.last
      rw [hblank, List.getLast?_append]
      rfl
    · intro hstarts
      exact hfree (hstarts.subset hb.opens)

/-!
## Standalone tokens
-/

structure TokenText (text : List Nat) : Prop where
  units : forall u, u ∈ text -> tokenUnit "_.-" u = true
  head : text.head?.any isAlphanumeric = true
  other : exists u, u ∈ text ∧ u ∉ unitOf ' ' :: REPLACEMENT

theorem TokenText.unstamped {text : List Nat} (h : TokenText text) : Unstamped text := by
  constructor
  · intro u hu
    have hunit := h.units u hu
    constructor
    · rintro rfl
      exact absurd hunit (by decide)
    · rintro rfl
      exact absurd hunit (by decide)
  · intro hlast
    exact absurd (h.units _ (List.mem_of_getLast? hlast)) (by decide)
  · exact h.other

theorem wordUnit_of_alphanumeric {u : Nat} (h : isAlphanumeric u = true) :
    isWordUnit u = true := by
  rw [isWordUnit, ← isAlphanumeric, h]
  rfl

theorem any_wordUnit_of_alphanumeric {next : Option Nat} (h : next.any isAlphanumeric = true) :
    next.any isWordUnit = true := by
  cases next with
  | none => cases h
  | some u => exact wordUnit_of_alphanumeric h

theorem any_alphanumeric_eq_false {next : Option Nat} (h : next.any isWordUnit = false) :
    next.any isAlphanumeric = false := by
  cases halnum : next.any isAlphanumeric with
  | false => rfl
  | true => rw [any_wordUnit_of_alphanumeric halnum] at h; cases h

/-- A pattern for standalone tokens: where it matches depends on the text, on the unit
before it and, after a word unit, on the kind of the unit behind. -/
structure Token (r : Regex Nat) : Prop where
  text : forall {read rest m}, m ∈ r.run read rest -> TokenText m.text
  begins : forall {read rest m}, m ∈ r.run read rest -> read.head?.any isWordUnit = false
  ends : forall {read rest m}, r.matchHere read rest = some m ->
    m.rest.head?.any isAlphanumeric = false
  moves : forall {read read' back back' m}, m ∈ r.run read (m.text ++ back) ->
    read'.head? = read.head? ->
    (m.text.getLast?.any isWordUnit = true ->
      back'.head?.any isWordUnit = back.head?.any isWordUnit) ->
    r.run read' (m.text ++ back') ≠ []

/-- After cuts a token pattern matches only where it matched before, at a position that
was kept. -/
theorem unmatched_of_scrubs {r : Regex Nat} (hr : Token r)
    {kept : List Nat -> List Nat -> Prop} {xs ys : List Nat}
    (h : Scrubs kept SafeCut [] xs ys [])
    (hbefore : forall front back, xs = front ++ back -> kept front.reverse back ->
      r.run front.reverse back = []) : r.Unmatched ys := by
  intro front back hsplit
  by_contra hrun
  rcases List.exists_mem_of_ne_nil _ hrun with ⟨m, hm⟩
  have hback := run_text hm
  have htext := hr.text hm
  have hne := htext.unstamped.ne_nil
  have hclear : Clear SafeCut m.text := fun _ _ _ _ hcut => hcut.stamp.offStamp htext.unstamped
  rw [hsplit, hback] at h
  rw [hback] at hm
  rcases h.lift hclear hne with ⟨front', back', rfl, hfront, hkept, hrest⟩
  simp only [List.append_nil] at hfront hkept hrest
  have hhead : forall rest, (m.text ++ rest).head? = m.text.head? := by
    intro rest
    exact List.head?_append_of_ne_nil _ hne
  have hbegin : front'.reverse.head? = front.reverse.head? := by
    rw [List.head?_reverse, List.head?_reverse]
    rcases hfront.ends with ⟨rfl, rfl⟩ | ⟨c, hxs, hys⟩ | ⟨_, _, _, hcut⟩
    · rfl
    · rw [hxs, hys]
    · have hnot := hcut.ends
      rw [hhead, htext.head] at hnot
      cases hnot
  have hend : m.text.getLast?.any isWordUnit = true ->
      back'.head?.any isWordUnit = m.rest.head?.any isWordUnit := by
    intro hlast
    rcases hrest.begins with ⟨hxs, hys⟩ | ⟨c, hxs, hys⟩ | ⟨a, b, xs', ys', hcut, hxs, hys⟩
    · rw [hxs, hys]
    · rw [hxs, hys]
    · have hread : (m.text.reverse ++ front'.reverse).head? = m.text.getLast? := by
        rw [List.head?_append_of_ne_nil _ (List.reverse_ne_nil_iff.mpr hne), List.head?_reverse]
      have ha : a.head?.any isWordUnit = false := by
        cases hcut.begins with
        | inl hread' =>
            rw [hread, hlast] at hread'
            cases hread'
        | inr ha => exact ha
      have hb : (b ++ ys').head?.any isWordUnit = false := by
        rcases hcut.stamp with rfl | rfl <;> rfl
      rw [hxs, hys, hb, List.head?_append_of_ne_nil _ hcut.ne_nil, ha]
  exact hr.moves hm hbegin hend (hbefore front' _ rfl hkept)

structure TokenCut (r : Regex Nat) (read a b rest : List Nat) : Prop where
  safe : SafeCut read a b rest
  stamp : b = REPLACEMENT
  text : TokenText a
  here : exists m, m ∈ r.run read (a ++ rest) ∧ m.text = a

/-- The rule of a token pattern cuts tokens, and keeps positions that have none. -/
theorem tokenRule_scrubs {r : Regex Nat} (hr : Token r) (hconsumes : Consumes r)
    (value : List Nat) :
    Scrubs (fun read rest => r.run read rest = []) (TokenCut r) [] value
      ((tokenRule r).apply value) [] := by
  apply scrubs_replaceFrom hconsumes
  · intro read rest hnone
    exact matchHere_eq_none_iff.mp hnone
  · intro read rest m hhere
    have hmem := matchHere_mem hhere
    have hsafe : SafeCut read m.text REPLACEMENT m.rest :=
      ⟨Or.inl rfl, (hr.text hmem).unstamped.ne_nil, Or.inl (hr.begins hmem), hr.ends hhere⟩
    have hcut : TokenCut r read m.text REPLACEMENT m.rest := by
      refine ⟨hsafe, rfl, hr.text hmem, m, ?_, rfl⟩
      rw [← run_text hmem]
      exact hmem
    have hswap : Scrubs (fun read rest => r.run read rest = []) (TokenCut r) read (m.text ++ [])
        (REPLACEMENT ++ []) m.rest := Scrubs.swap hcut Scrubs.nil
    rwa [List.append_nil, List.append_nil] at hswap

/-- The rule of a token pattern leaves no match of it. -/
theorem tokenRule_unmatched {r : Regex Nat} (hr : Token r) (hconsumes : Consumes r)
    (value : List Nat) : r.Unmatched ((tokenRule r).apply value) := by
  have hscrubs := (tokenRule_scrubs hr hconsumes value).mono (fun h => h) TokenCut.safe
  exact unmatched_of_scrubs hr hscrubs fun _ _ _ hkept => hkept

/-- Cuts made for any reason leave a text without a token without one. -/
theorem Token.unmatched {r : Regex Nat} (hr : Token r) {kept : List Nat -> List Nat -> Prop}
    {xs ys : List Nat} (h : Scrubs kept SafeCut [] xs ys []) (hxs : r.Unmatched xs) :
    r.Unmatched ys :=
  unmatched_of_scrubs hr h fun front back hsplit _ => hxs front back hsplit

/-!
## The six patterns
-/

theorem run_edge {unit : Type} {holds : Option unit -> Option unit -> Bool}
    {read rest : List unit} {m : Match unit} :
    m ∈ (Regex.edge holds).run read rest <->
      holds read.head? rest.head? = true ∧ m = ⟨[], rest, []⟩ := by
  rw [Regex.run]
  split
  · next h => rw [List.mem_singleton, h, eq_self, true_and]
  · next h =>
      constructor
      · intro hm
        cases hm
      · intro hm
        exact absurd hm.1 h

theorem run_wordEdge {read rest : List Nat} {m : Match Nat} :
    m ∈ wordEdge.run read rest <->
      read.head?.any isWordUnit ≠ rest.head?.any isWordUnit ∧ m = ⟨[], rest, []⟩ := by
  rw [wordEdge, run_edge, bne_iff_ne]

/-- A part that tells a token from a replacement. -/
def Opens (first : Regex Nat) : Prop :=
  forall text, first.Accepts text -> text.head?.any isAlphanumeric = true ∧
    exists u, u ∈ text ∧ u ∉ unitOf ' ' :: REPLACEMENT

theorem opens_literal (text : String)
    (hhead : (stringUnits text).head?.any isAlphanumeric = true)
    (hother : exists u, u ∈ stringUnits text ∧ u ∉ unitOf ' ' :: REPLACEMENT) :
    Opens (literal text) := by
  intro units haccepts
  rw [accepts_lit.mp haccepts]
  exact ⟨hhead, hother⟩

theorem tokenText_of_accepts {first last : Regex Nat} (hopens : Opens first)
    (hunits : (Regex.seq first last).Within fun u => tokenUnit "_.-" u = true) {text : List Nat}
    (h : (Regex.seq first last).Accepts text) : TokenText text := by
  have hall := accepts_within hunits h
  rcases h with ⟨x, y, rfl, hx, _⟩
  rcases hopens x hx with ⟨hhead, u, hu, hout⟩
  have hne : x ≠ [] := List.ne_nil_of_mem hu
  constructor
  · exact hall
  · rw [List.head?_append_of_ne_nil _ hne]
    exact hhead
  · exact ⟨u, List.mem_append_left y hu, hout⟩

theorem begins_of_edge {read : List Nat} {text rest : List Nat} (htext : TokenText text)
    (hedge : read.head?.any isWordUnit ≠ (text ++ rest).head?.any isWordUnit) :
    read.head?.any isWordUnit = false := by
  rw [List.head?_append_of_ne_nil _ htext.unstamped.ne_nil,
    any_wordUnit_of_alphanumeric htext.head] at hedge
  exact Bool.eq_false_iff.mpr hedge

/-- A boundary, a part of its own, and a rest read to the end of its class. -/
theorem token_of_parts {first last : Regex Nat} (hopens : Opens first)
    (hlocal : (Regex.seq first last).Local)
    (hunits : (Regex.seq first last).Within fun u => tokenUnit "_.-" u = true)
    (hends : forall {read rest m},
      (Regex.seq wordEdge (Regex.seq first last)).matchHere read rest = some m ->
      m.rest.head?.any isAlphanumeric = false) :
    Token (Regex.seq wordEdge (Regex.seq first last)) := by
  have hsplit : forall {read rest : List Nat} {m : Match Nat},
      m ∈ (Regex.seq wordEdge (Regex.seq first last)).run read rest ->
      read.head?.any isWordUnit ≠ rest.head?.any isWordUnit ∧
        (Regex.seq first last).Accepts m.text := by
    intro read rest m hm
    rcases mem_run_seq.mp hm with ⟨x, hx, y, hy, rfl⟩
    rcases run_wordEdge.mp hx with ⟨hedge, rfl⟩
    exact ⟨hedge, accepts_of_run hy⟩
  constructor
  · intro read rest m hm
    exact tokenText_of_accepts hopens hunits (hsplit hm).2
  · intro read rest m hm
    have htext := tokenText_of_accepts hopens hunits (hsplit hm).2
    have hedge := (hsplit hm).1
    rw [run_text hm] at hedge
    exact begins_of_edge htext hedge
  · exact hends
  · intro read read' back back' m hm hhead _ hnone
    have htext := tokenText_of_accepts hopens hunits (hsplit hm).2
    have hedge := begins_of_edge htext (hsplit hm).1
    rcases run_of_accepts hlocal (hsplit hm).2 read' back' with ⟨y, hy, _, _⟩
    have hmatch : (⟨[], m.text ++ back', []⟩ : Match Nat).before y ∈
        (Regex.seq wordEdge (Regex.seq first last)).run read' (m.text ++ back') := by
      apply mem_run_seq.mpr
      refine ⟨_, run_wordEdge.mpr ⟨?_, rfl⟩, y, hy, rfl⟩
      rw [hhead, hedge, List.head?_append_of_ne_nil _ htext.unstamped.ne_nil,
        any_wordUnit_of_alphanumeric htext.head]
      exact Bool.false_ne_true
    rw [hnone] at hmatch
    cases hmatch

theorem many_ends {accepts : Nat -> Bool}
    (haccepts : forall u, isAlphanumeric u = true -> accepts u = true) {least : Nat}
    (parts : List (Regex Nat)) {read rest : List Nat} {m : Match Nat}
    (h : (Regex.all (parts ++ [Regex.many accepts least none])).matchHere read rest = some m) :
    m.rest.head?.any isAlphanumeric = false := by
  have hnext := matchHere_all_last (fun rest => rest.head?.any accepts = false)
    (fun _ _ _ hlast => matchHere_many_next hlast) h
  cases hhead : m.rest.head? with
  | none => rfl
  | some u =>
      rw [hhead] at hnext
      cases hu : isAlphanumeric u with
      | false => exact hu
      | true =>
          rw [Option.any_some, haccepts u hu] at hnext
          cases hnext

theorem tokenUnit_mono {others more : String}
    (h : stringUnits others ⊆ stringUnits more) {u : Nat} (hu : tokenUnit others u = true) :
    tokenUnit more u = true := by
  rw [tokenUnit, Bool.or_eq_true, decide_eq_true_eq] at hu ⊢
  exact hu.imp_right fun hmem => h hmem

theorem tokenUnit_of_alphanumeric (others : String) {u : Nat} (h : isAlphanumeric u = true) :
    tokenUnit others u = true := by
  rw [tokenUnit, h]
  rfl

theorem within_literal {text : String}
    (h : forall u, u ∈ stringUnits text -> tokenUnit "_.-" u = true) :
    (literal text).Within fun u => tokenUnit "_.-" u = true :=
  within_lit h

theorem token_apiKey : Token API_KEY_PATTERN := by
  apply token_of_parts
  · rintro text (h | h | h)
    · exact opens_literal "sk" (by decide) ⟨unitOf 's', by decide⟩ text h
    · exact opens_literal "rk" (by decide) ⟨unitOf 'r', by decide⟩ text h
    · exact opens_literal "pk" (by decide) ⟨unitOf 'p', by decide⟩ text h
  · exact ⟨⟨local_lit _, local_lit _, local_lit _⟩, local_lit _, trivial, trivial⟩
  · refine ⟨⟨within_literal (by decide), within_literal (by decide), within_literal (by decide)⟩,
      within_literal (by decide), ?_, trivial⟩
    exact fun u => tokenUnit_mono (by decide)
  · intro read rest m h
    exact many_ends (fun u => tokenUnit_of_alphanumeric "_-")
      [wordEdge, Regex.group 1 (Regex.any [literal "sk", literal "rk", literal "pk"]),
        literal "-"] h

theorem within_oneOf {choices : String}
    (h : forall u, u ∈ stringUnits choices -> tokenUnit "_.-" u = true) :
    (Regex.oneOf (stringUnits choices)).Within fun u => tokenUnit "_.-" u = true :=
  fun u hu => h u (of_decide_eq_true hu)

theorem token_githubToken : Token GITHUB_TOKEN_PATTERN := by
  apply token_of_parts
  · exact opens_literal "gh" (by decide) ⟨unitOf 'g', by decide⟩
  · exact ⟨local_lit _, trivial, local_lit _, trivial, trivial⟩
  · refine ⟨within_literal (by decide), within_oneOf (by decide), within_literal (by decide), ?_,
      trivial⟩
    exact fun u => tokenUnit_of_alphanumeric "_.-"
  · intro read rest m h
    exact many_ends (fun u hu => hu)
      [wordEdge, literal "gh", Regex.oneOf (stringUnits "pousr"), literal "_"] h

theorem token_githubPat : Token GITHUB_PAT_PATTERN := by
  apply token_of_parts
  · exact opens_literal "github_pat_" (by decide) ⟨unitOf 'g', by decide⟩
  · exact ⟨local_lit _, trivial, trivial⟩
  · refine ⟨within_literal (by decide), ?_, trivial⟩
    exact fun u => tokenUnit_mono (by decide)
  · intro read rest m h
    exact many_ends (fun u => tokenUnit_of_alphanumeric "_") [wordEdge, literal "github_pat_"] h

theorem token_slackToken : Token SLACK_TOKEN_PATTERN := by
  apply token_of_parts
  · exact opens_literal "xox" (by decide) ⟨unitOf 'x', by decide⟩
  · exact ⟨local_lit _, trivial, local_lit _, trivial, trivial⟩
  · refine ⟨within_literal (by decide), within_oneOf (by decide), within_literal (by decide), ?_,
      trivial⟩
    exact fun u => tokenUnit_mono (by decide)
  · intro read rest m h
    exact many_ends (fun u => tokenUnit_of_alphanumeric "-")
      [wordEdge, literal "xox", Regex.oneOf (stringUnits "baprs"), literal "-"] h

theorem token_jwt : Token JWT_PATTERN := by
  have hsegment : forall u, tokenUnit "_-" u = true -> tokenUnit "_.-" u = true :=
    fun u => tokenUnit_mono (by decide)
  apply token_of_parts
  · exact opens_literal "eyJ" (by decide) ⟨unitOf 'e', by decide⟩
  · exact ⟨local_lit _, trivial, local_lit _, trivial, local_lit _, trivial, trivial⟩
  · exact ⟨within_literal (by decide), hsegment, within_literal (by decide), hsegment,
      within_literal (by decide), hsegment, trivial⟩
  · intro read rest m h
    exact many_ends (fun u => tokenUnit_of_alphanumeric "_-")
      [wordEdge, literal "eyJ", Regex.many (tokenUnit "_-") 1 none, literal ".",
        Regex.many (tokenUnit "_-") 1 none, literal "."] h

/-- The prefix and the sixteen units of an access key. -/
def AWS_KEY : Regex Nat :=
  Regex.seq (literal "AKIA") (Regex.many isEnvUnit 16 (some 16))

theorem alphanumeric_of_envUnit {u : Nat} (h : isEnvUnit u = true) : isAlphanumeric u = true := by
  rw [isEnvUnit, Bool.or_eq_true] at h
  rw [isAlphanumeric, Bool.or_eq_true, Bool.or_eq_true]
  exact h.imp_left Or.inl

/-- An access key stands between two boundaries. -/
theorem awsKey_of_run {read rest : List Nat} {m : Match Nat}
    (h : m ∈ AWS_KEY_PATTERN.run read rest) :
    AWS_KEY.Accepts m.text ∧ read.head?.any isWordUnit ≠ rest.head?.any isWordUnit ∧
      (m.text.reverse ++ read).head?.any isWordUnit ≠ m.rest.head?.any isWordUnit := by
  rcases mem_run_seq.mp h with ⟨_, hfirst, _, hwhole, rfl⟩
  rcases run_wordEdge.mp hfirst with ⟨hbefore, rfl⟩
  rcases mem_run_seq.mp hwhole with ⟨word, hword, _, htail, rfl⟩
  rcases mem_run_seq.mp htail with ⟨units, hunits, _, hclosing, rfl⟩
  rcases mem_run_seq.mp hclosing with ⟨_, hlast, last, hempty, rfl⟩
  rcases run_wordEdge.mp hlast with ⟨hbehind, rfl⟩
  rw [Regex.all, Regex.run, List.mem_singleton] at hempty
  subst hempty
  have htext : ((⟨[], rest, []⟩ : Match Nat).before (word.before (units.before
      ((⟨[], units.rest, []⟩ : Match Nat).before ⟨[], units.rest, []⟩)))).text =
      word.text ++ units.text := by
    show [] ++ (word.text ++ (units.text ++ ([] ++ []))) = _
    rw [List.nil_append, List.nil_append, List.append_nil]
  rw [htext]
  refine ⟨⟨_, _, rfl, accepts_of_run hword, accepts_of_run hunits⟩, hbefore, ?_⟩
  rw [List.reverse_append, List.append_assoc]
  exact hbehind

theorem run_of_awsKey {read text back : List Nat} (h : AWS_KEY.Accepts text)
    (hbefore : read.head?.any isWordUnit ≠ (text ++ back).head?.any isWordUnit)
    (hbehind : (text.reverse ++ read).head?.any isWordUnit ≠ back.head?.any isWordUnit) :
    AWS_KEY_PATTERN.run read (text ++ back) ≠ [] := by
  rcases h with ⟨x, y, rfl, hx, hy⟩
  rw [List.append_assoc] at hbefore ⊢
  rw [List.reverse_append, List.append_assoc] at hbehind
  rcases run_of_accepts (local_lit _) hx read (y ++ back) with ⟨word, hword, rfl, hrest⟩
  rcases run_of_accepts (r := Regex.many isEnvUnit 16 (some 16)) trivial hy
    (word.text.reverse ++ read) back with ⟨units, hunits, rfl, rfl⟩
  have hlast := run_wordEdge.mpr ⟨hbehind, rfl⟩
  have hempty : (⟨[], units.rest, []⟩ : Match Nat) ∈ (Regex.all ([] : List (Regex Nat))).run
      (units.text.reverse ++ (word.text.reverse ++ read)) units.rest := by
    rw [Regex.all, Regex.run]
    exact List.mem_singleton.mpr rfl
  rw [← hrest] at hunits
  apply List.ne_nil_of_mem
  exact mem_run_seq.mpr ⟨_, run_wordEdge.mpr ⟨hbefore, rfl⟩, _, mem_run_seq.mpr
    ⟨word, hword, _, mem_run_seq.mpr ⟨units, hunits, _, mem_run_seq.mpr
      ⟨_, hlast, _, hempty, rfl⟩, rfl⟩, rfl⟩, rfl⟩

theorem token_awsKey : Token AWS_KEY_PATTERN := by
  have htext : forall {text : List Nat}, AWS_KEY.Accepts text -> TokenText text := by
    intro text h
    apply tokenText_of_accepts (opens_literal "AKIA" (by decide) ⟨unitOf 'K', by decide⟩) _ h
    refine ⟨within_literal (by decide), ?_⟩
    exact fun u hu => tokenUnit_of_alphanumeric "_.-" (alphanumeric_of_envUnit hu)
  have hlast : forall {text : List Nat}, AWS_KEY.Accepts text ->
      text.getLast?.any isWordUnit = true := by
    rintro text ⟨x, y, rfl, _, hunits, hleast, _⟩
    have hne : y ≠ [] := List.ne_nil_of_length_pos (Nat.lt_of_lt_of_le (by decide) hleast)
    rw [List.getLast?_append_of_ne_nil _ hne, List.getLast?_eq_getLast_of_ne_nil hne]
    exact wordUnit_of_alphanumeric (alphanumeric_of_envUnit (hunits _ (List.getLast_mem hne)))
  have hread : forall {text read : List Nat}, AWS_KEY.Accepts text ->
      (text.reverse ++ read).head?.any isWordUnit = true := by
    intro text read h
    have hne := (htext h).unstamped.ne_nil
    rw [List.head?_append_of_ne_nil _ (List.reverse_ne_nil_iff.mpr hne), List.head?_reverse]
    exact hlast h
  have hbehind : forall {read rest : List Nat} {m : Match Nat},
      m ∈ AWS_KEY_PATTERN.run read rest -> m.rest.head?.any isWordUnit = false := by
    intro read rest m hm
    rcases awsKey_of_run hm with ⟨haccepts, _, hedge⟩
    rw [hread haccepts] at hedge
    exact Bool.eq_false_iff.mpr hedge.symm
  constructor
  · intro read rest m hm
    exact htext (awsKey_of_run hm).1
  · intro read rest m hm
    rcases awsKey_of_run hm with ⟨haccepts, hedge, _⟩
    rw [run_text hm] at hedge
    exact begins_of_edge (htext haccepts) hedge
  · intro read rest m hhere
    exact any_alphanumeric_eq_false (hbehind (matchHere_mem hhere))
  · intro read read' back back' m hm hhead hnext
    rcases awsKey_of_run hm with ⟨haccepts, hedge, _⟩
    have hkind : forall rest, (m.text ++ rest).head?.any isWordUnit = true := by
      intro rest
      rw [List.head?_append_of_ne_nil _ (htext haccepts).unstamped.ne_nil]
      exact any_wordUnit_of_alphanumeric (htext haccepts).head
    have hrest : m.rest = back := List.append_cancel_left (run_text hm).symm
    apply run_of_awsKey haccepts
    · rw [hhead, begins_of_edge (htext haccepts) hedge, hkind]
      exact Bool.false_ne_true
    · rw [hread haccepts, hnext (hlast haccepts), ← hrest, hbehind hm]
      exact fun h => Bool.false_ne_true h.symm

end Redaction
end CatFactory
