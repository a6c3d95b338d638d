import CatFactory.Redaction.Passes

/-!
# User and password in a URL

Behind the scheme of a URL, a user and a password may stand before the host.  The rule
for them leaves no password, and neither do the rules behind it bring one up.
-/

namespace CatFactory
namespace Redaction

open Foundation

def slash : Nat :=
  unitOf '/'

def colon : Nat :=
  unitOf ':'

def atSign : Nat :=
  unitOf '@'

structure UrlScheme (scheme : List Nat) : Prop where
  letter : scheme.head?.any (fun u => isUpperUnit u || isLowerUnit u) = true
  units : forall u, u ∈ scheme -> isSchemeUnit u = true
  length : scheme.length ≤ 40

structure UrlUser (user : List Nat) : Prop where
  ne_nil : user ≠ []
  units : forall u, u ∈ user -> isUserUnit u = true

structure UrlPassword (password : List Nat) : Prop where
  ne_nil : password ≠ []
  units : forall u, u ∈ password -> isPasswordUnit u = true

/-- Every `scheme://user:password@` of the text has the replacement for a password. -/
def PasswordsScrubbed (text : List Nat) : Prop :=
  forall front scheme user password back,
    text = front ++ ((scheme ++ stringUnits "://") ++
      (user ++ colon :: (password ++ atSign :: back))) ->
    UrlScheme scheme -> UrlUser user -> UrlPassword password -> password = REPLACEMENT

/-!
## Units
-/

theorem password_of_user {u : Nat} (h : isUserUnit u = true) : isPasswordUnit u = true := by
  rw [isUserUnit, Bool.and_eq_true, Bool.not_eq_true', Bool.not_eq_true',
    decide_eq_false_iff_not] at h
  have hsub : stringUnits "/@" ⊆ stringUnits "/:@" := by decide
  rw [isPasswordUnit, h.1, decide_eq_false fun hmem => h.2 (hsub hmem)]
  rfl

theorem user_of_password {u : Nat} (h : isPasswordUnit u = true) (hcolon : u ≠ colon) :
    isUserUnit u = true := by
  rw [isPasswordUnit, Bool.and_eq_true, Bool.not_eq_true', Bool.not_eq_true',
    decide_eq_false_iff_not] at h
  have hother : u ∉ stringUnits "/:@" := by
    intro hmem
    have hcases : forall v, v ∈ stringUnits "/:@" -> v = colon ∨ v ∈ stringUnits "/@" := by decide
    cases hcases u hmem with
    | inl heq => exact hcolon heq
    | inr hmem => exact h.2 hmem
  rw [isUserUnit, h.1, decide_eq_false hother]
  rfl

theorem UrlUser.colon {user : List Nat} (h : UrlUser user) : colon ∉ user :=
  fun hmem => absurd (h.units _ hmem) (by decide)

theorem UrlUser.slash {user : List Nat} (h : UrlUser user) : slash ∉ user :=
  fun hmem => absurd (h.units _ hmem) (by decide)

theorem UrlPassword.atSign {password : List Nat} (h : UrlPassword password) : atSign ∉ password :=
  fun hmem => absurd (h.units _ hmem) (by decide)

theorem UrlPassword.slash {password : List Nat} (h : UrlPassword password) : slash ∉ password :=
  fun hmem => absurd (h.units _ hmem) (by decide)

theorem urlPassword_replacement : UrlPassword REPLACEMENT :=
  ⟨by decide, by decide⟩

/-- A text splits in one way only at the first of a unit. -/
theorem split_first {c : Nat} {p p' q q' : List Nat} (hp : c ∉ p) (hp' : c ∉ p')
    (h : p ++ c :: q = p' ++ c :: q') : p = p' ∧ q = q' := by
  induction p generalizing p' with
  | nil =>
      cases p' with
      | nil => exact ⟨rfl, List.tail_eq_of_cons_eq h⟩
      | cons d p' => exact absurd ((List.cons.inj h).1 ▸ List.mem_cons_self) hp'
  | cons d p ih =>
      cases p' with
      | nil => exact absurd ((List.cons.inj h).1 ▸ List.mem_cons_self) hp
      | cons e p' =>
          rw [List.cons_append, List.cons_append, List.cons.injEq] at h
          have hsame := ih (fun hmem => hp (List.mem_cons_of_mem d hmem))
            (fun hmem => hp' (List.mem_cons_of_mem e hmem)) h.2
          rw [h.1, hsame.1]
          exact ⟨rfl, hsame.2⟩

/-- The user and the password of two equal texts are the same. -/
theorem password_eq {user user' password password' back back' : List Nat} (huser : UrlUser user)
    (huser' : UrlUser user') (hpassword : UrlPassword password)
    (hpassword' : UrlPassword password')
    (h : user ++ colon :: (password ++ atSign :: back) =
      user' ++ colon :: (password' ++ atSign :: back')) : password = password' :=
  (split_first hpassword.atSign hpassword'.atSign
    (split_first huser.colon huser'.colon h).2).1

/-!
## What the pattern matches
-/

theorem urlScheme_accepts {scheme : List Nat} (h : UrlScheme scheme) :
    URL_SCHEME.Accepts (scheme ++ stringUnits "://") := by
  cases scheme with
  | nil => exact absurd h.letter (by decide)
  | cons u scheme =>
      have htail : (Regex.many isSchemeUnit 0 (some 39)).Accepts scheme := by
        refine ⟨fun v hv => h.units v (List.mem_cons_of_mem u hv), Nat.zero_le _, ?_⟩
        rintro n hn
        cases hn
        exact Nat.le_of_succ_le_succ h.length
      refine ⟨[u], scheme ++ stringUnits "://", rfl, ⟨u, rfl, h.letter⟩, scheme,
        stringUnits "://", rfl, htail, stringUnits "://", [], ?_, accepts_lit.mpr rfl, rfl⟩
      rw [List.append_nil]

theorem urlScheme_of_accepts {text : List Nat} (h : URL_SCHEME.Accepts text) :
    exists scheme, text = scheme ++ stringUnits "://" ∧ UrlScheme scheme := by
  rcases h with ⟨_, _, rfl, ⟨u, rfl, hu⟩, units, _, rfl, hunits, sign, _, rfl, hsign, hnil⟩
  have hempty : _ = [] := hnil
  rw [accepts_lit.mp hsign, hempty, List.append_nil]
  refine ⟨u :: units, rfl, hu, ?_, ?_⟩
  · intro v hv
    cases hv with
    | head =>
        have hletter : (isUpperUnit u || isLowerUnit u) = true := hu
        rw [isSchemeUnit, tokenUnit, isAlphanumeric, hletter]
        rfl
    | tail _ hv => exact hunits.1 v hv
  · exact Nat.succ_le_succ (hunits.2.2 39 rfl)

theorem local_urlScheme : URL_SCHEME.Local :=
  ⟨trivial, trivial, local_lit _, trivial⟩

/-- A match of the pattern: the user, the sign between, the password and the sign
behind it, after the scheme of a URL. -/
structure Userinfo (read : List Nat) (m : Match Nat) : Prop where
  text : m.text = m.captured 1 ++ colon :: (m.captured 2 ++ [atSign])
  lead : exists scheme before, read = (scheme ++ stringUnits "://").reverse ++ before ∧
    UrlScheme scheme
  user : UrlUser (m.captured 1)
  password : UrlPassword (m.captured 2)

theorem userinfo_of_run {read rest : List Nat} {m : Match Nat}
    (h : m ∈ USERINFO_PATTERN.run read rest) : Userinfo read m := by
  rcases mem_run_seq.mp h with ⟨_, hscheme, _, htail, rfl⟩
  rcases mem_run_behind.mp hscheme with ⟨rfl, seen, before, rfl, x, hx, rfl⟩
  rcases mem_run_seq.mp htail with ⟨user, huser, _, htail₁, rfl⟩
  rcases mem_run_seq.mp htail₁ with ⟨sign, hsign, _, htail₂, rfl⟩
  rcases mem_run_seq.mp htail₂ with ⟨password, hpassword, _, htail₃, rfl⟩
  rcases mem_run_seq.mp htail₃ with ⟨last, hlast, final, hfinal, rfl⟩
  rw [Regex.all, Regex.run, List.mem_singleton] at hfinal
  subst hfinal
  have huser' := run_group rfl huser
  have hpassword' := run_group rfl hpassword
  generalize hm : (⟨[], rest, []⟩ : Match Nat).before (user.before (sign.before
    (password.before (last.before ⟨[], last.rest, []⟩)))) = m
  have hgroups : m.groups = [(1, user.text), (2, password.text)] := by
    rw [← hm]
    show [] ++ (user.groups ++ (sign.groups ++ (password.groups ++ (last.groups ++ [])))) = _
    rw [huser'.2, hpassword'.2, run_groups rfl hsign, run_groups rfl hlast]
    rfl
  have hcaptured₁ : m.captured 1 = user.text := by
    rw [Match.captured, hgroups]
    rfl
  have hcaptured₂ : m.captured 2 = password.text := by
    rw [Match.captured, hgroups]
    rfl
  rcases huser'.1 with ⟨hunits₁, hpos₁, _⟩
  rcases hpassword'.1 with ⟨hunits₂, hpos₂, _⟩
  constructor
  · rw [hcaptured₁, hcaptured₂, ← hm]
    show [] ++ (user.text ++ (sign.text ++ (password.text ++ (last.text ++ [])))) = _
    rw [run_lit hsign, run_lit hlast]
    rfl
  · rcases urlScheme_of_accepts (accepts_of_run hx) with ⟨scheme, hlead, hscheme⟩
    exact ⟨scheme, before, by rw [hlead], hscheme⟩
  · rw [hcaptured₁]
    exact ⟨List.ne_nil_of_length_pos hpos₁, hunits₁⟩
  · rw [hcaptured₂]
    exact ⟨List.ne_nil_of_length_pos hpos₂, hunits₂⟩

theorem Userinfo.slash {read : List Nat} {m : Match Nat} (h : Userinfo read m) :
    read.head? = some slash := by
  rcases h.lead with ⟨scheme, before, rfl, _⟩
  rw [List.reverse_append]
  rfl

/-- A user and a password after a scheme are matched. -/
theorem run_of_userinfo {before scheme user password back : List Nat} (hscheme : UrlScheme scheme)
    (huser : UrlUser user) (hpassword : UrlPassword password) :
    USERINFO_PATTERN.run ((scheme ++ stringUnits "://").reverse ++ before)
      (user ++ colon :: (password ++ atSign :: back)) ≠ [] := by
  rcases run_of_accepts local_urlScheme (urlScheme_accepts hscheme) before
    (user ++ colon :: (password ++ atSign :: back)) with ⟨x, hx, htext, _⟩
  have hlocal : (Regex.all [Regex.group 1 (Regex.many isUserUnit 1 none),
      Regex.lit (stringUnits ":"), Regex.group 2 (Regex.many isPasswordUnit 1 none),
      Regex.lit (stringUnits "@")]).Local :=
    ⟨trivial, local_lit _, trivial, local_lit _, trivial⟩
  have haccepts : (Regex.all [Regex.group 1 (Regex.many isUserUnit 1 none),
      Regex.lit (stringUnits ":"), Regex.group 2 (Regex.many isPasswordUnit 1 none),
      Regex.lit (stringUnits "@")]).Accepts (user ++ colon :: (password ++ [atSign])) := by
    refine ⟨user, colon :: (password ++ [atSign]), rfl, ⟨huser.units, ?_, ?_⟩, [colon],
      password ++ [atSign], rfl, accepts_lit.mpr rfl, password, [atSign], rfl,
      ⟨hpassword.units, ?_, ?_⟩, [atSign], [], rfl, accepts_lit.mpr rfl, rfl⟩
    · exact List.length_pos_iff.mpr huser.ne_nil
    · intro n hn
      cases hn
    · exact List.length_pos_iff.mpr hpassword.ne_nil
    · intro n hn
      cases hn
  rcases run_of_accepts hlocal haccepts ((scheme ++ stringUnits "://").reverse ++ before) back with
    ⟨y, hy, _, _⟩
  rw [List.append_assoc, List.cons_append, List.append_assoc] at hy
  apply List.ne_nil_of_mem
  exact mem_run_seq.mpr ⟨⟨[], _, []⟩, mem_run_behind.mpr ⟨rfl, scheme ++ stringUnits "://", before,
    rfl, x, hx, htext⟩, y, hy, rfl⟩

/-!
## The rule leaves no password
-/

theorem Userinfo.replaced {read : List Nat} {m : Match Nat} (_ : Userinfo read m) :
    userinfoRule.replace m = m.captured 1 ++ colon :: (REPLACEMENT ++ [atSign]) :=
  rfl

theorem slash_not_mem_userinfo {user password : List Nat} (huser : UrlUser user)
    (hpassword : UrlPassword password) : slash ∉ user ++ colon :: (password ++ [atSign]) := by
  intro hmem
  rcases List.mem_append.mp hmem with hmem | hmem
  · exact huser.slash hmem
  · cases hmem with
    | tail _ hmem =>
        rcases List.mem_append.mp hmem with hmem | hmem
        · exact hpassword.slash hmem
        · exact absurd hmem (by decide)

/-- What a scheme leads in with has no `@` and ends in a slash. -/
theorem atSign_not_mem_lead {scheme : List Nat} (h : UrlScheme scheme) :
    atSign ∉ scheme ++ stringUnits "://" := by
  intro hmem
  rcases List.mem_append.mp hmem with hmem | hmem
  · exact absurd (h.units _ hmem) (by decide)
  · exact absurd hmem (by decide)

theorem getLast?_lead (scheme : List Nat) :
    (scheme ++ stringUnits "://").getLast? = some slash := by
  rw [List.getLast?_append]
  rfl

/-- A part without `@` at the end of a text stands behind every `@`. -/
theorem ends_behind {before replaced more front lead : List Nat}
    (hat : replaced.getLast? = some atSign) (hlead : atSign ∉ lead)
    (h : (before ++ replaced) ++ more = front ++ lead) : exists front', more = front' ++ lead := by
  rcases List.append_eq_append_iff.mp h with ⟨gap, _, hmore⟩ | ⟨excess, hover, hsplit⟩
  · exact ⟨gap, hmore⟩
  · cases excess with
    | nil => exact ⟨[], hsplit.symm⟩
    | cons v excess =>
        have hboth := congrArg List.getLast? hover
        rw [List.getLast?_append, hat, Option.some_or,
          List.getLast?_append_of_ne_nil _ (List.cons_ne_nil v excess)] at hboth
        exact absurd (hsplit ▸ List.mem_append_left more (List.mem_of_getLast? hboth.symm)) hlead

/-- The text after the pass, from any position on. -/
theorem password_of_replaceFrom {read rest front scheme user password back : List Nat}
    (hscheme : UrlScheme scheme) (huser : UrlUser user) (hpassword : UrlPassword password)
    (h : USERINFO_PATTERN.replaceFrom userinfoRule.replace 0 read rest =
      front ++ ((scheme ++ stringUnits "://") ++
        (user ++ colon :: (password ++ atSign :: back)))) : password = REPLACEMENT := by
  have hconsumes : Consumes USERINFO_PATTERN := consumes_of_eats rfl
  induction hlength : rest.length using Nat.strongRecOn generalizing read rest front with
  | ind n ih =>
      have hmatches : forall before back, USERINFO_PATTERN.matchHere
          ((front ++ (scheme ++ stringUnits "://")).reverse ++ before)
          (user ++ colon :: (password ++ atSign :: back)) ≠ none := by
        intro before back
        rw [List.reverse_append, List.append_assoc, ne_eq, matchHere_eq_none_iff]
        exact run_of_userinfo hscheme huser hpassword
      cases hfound : USERINFO_PATTERN.find read rest with
      | none =>
          rw [replaceFrom_none hconsumes hfound, ← List.append_assoc] at h
          exact absurd (find_eq_none_iff.mp hfound _ _ h) (hmatches read back)
      | some found =>
          rcases found with ⟨skipped, m⟩
          have hleft := leftmost_of_find hfound
          have hinfo := userinfo_of_run (matchHere_mem hleft.here)
          have hshorter : m.rest.length < n := hlength ▸ rest_lt_of_find hconsumes hfound
          have hsame : forall {back' : List Nat}, userinfoRule.replace m ++ back' =
              user ++ colon :: (password ++ atSign :: back) -> password = REPLACEMENT := by
            intro back' heq
            rw [hinfo.replaced, List.append_assoc, List.cons_append, List.append_assoc] at heq
            exact (password_eq hinfo.user huser urlPassword_replacement hpassword heq).symm
          have hfree : slash ∉ userinfoRule.replace m :=
            slash_not_mem_userinfo hinfo.user urlPassword_replacement
          rw [replaceFrom_some hconsumes hfound, ← List.append_assoc front] at h
          rcases List.append_eq_append_iff.mp h with ⟨gap, hgap, hrest⟩ | ⟨gap, hgap, hrest⟩
          · -- the scheme ends where the match does not begin before
            cases gap with
            | nil => exact hsame hrest
            | cons u gap =>
                have hlast : slash ∈ u :: gap := by
                  have hboth := congrArg List.getLast? hgap
                  rw [List.getLast?_append, getLast?_lead, Option.some_or,
                    List.getLast?_append_of_ne_nil _ (List.cons_ne_nil u gap)] at hboth
                  exact List.mem_of_getLast? hboth.symm
                rcases List.append_eq_append_iff.mp hrest with ⟨more, hmore, hlater⟩ | ⟨more, hmore, _⟩
                · -- the match ends before the scheme begins
                  have hsplit : (skipped ++ userinfoRule.replace m) ++ more =
                      front ++ (scheme ++ stringUnits "://") := by
                    rw [List.append_assoc, ← hmore]
                    exact hgap.symm
                  have hat : (userinfoRule.replace m).getLast? = some atSign := by
                    rw [hinfo.replaced, List.getLast?_append]
                    rfl
                  rcases ends_behind hat (atSign_not_mem_lead hscheme) hsplit with ⟨front', rfl⟩
                  rw [List.append_assoc front'] at hlater
                  exact ih _ hshorter hlater rfl
                · exact absurd (hmore ▸ List.mem_append_left more hlast) hfree
          · -- the scheme is in what was skipped
            cases gap with
            | nil => exact hsame hrest.symm
            | cons u gap =>
                have hlast : slash ∈ u :: gap := by
                  have hread := hinfo.slash
                  rw [hgap, List.reverse_append, List.append_assoc,
                    List.head?_append_of_ne_nil _ (by simp), List.head?_reverse] at hread
                  exact List.mem_of_getLast? hread
                have hwhole : (user ++ colon :: (password ++ [atSign])) ++ back =
                    (u :: gap) ++ (userinfoRule.replace m ++ USERINFO_PATTERN.replaceFrom
                      userinfoRule.replace 0
                      (m.text.reverse ++ (skipped.reverse ++ read)) m.rest) := by
                  rw [← hrest, List.append_assoc, List.cons_append, List.append_assoc]
                  rfl
                rcases List.append_eq_append_iff.mp hwhole with ⟨more, hmore, _⟩ | ⟨more, hmore, _⟩
                · have hearlier := hleft.first (front ++ (scheme ++ stringUnits "://"))
                    ((u :: gap) ++ (m.text ++ m.rest)) (by rw [hleft.text, hgap, List.append_assoc])
                    (by simp [hgap])
                  rw [hmore, List.append_assoc, List.append_assoc, List.cons_append,
                    List.append_assoc] at hearlier
                  exact absurd hearlier (hmatches read _)
                · exact absurd (hmore ▸ List.mem_append_left more hlast)
                    (slash_not_mem_userinfo huser hpassword)

theorem userinfoRule_scrubbed (value : List Nat) :
    PasswordsScrubbed (userinfoRule.apply value) := by
  intro front scheme user password back htext hscheme huser hpassword
  exact password_of_replaceFrom hscheme huser hpassword htext

/-- The password of a URL, between its two signs. -/
structure UserinfoCut (read a b rest : List Nat) : Prop where
  safe : SafeCut read a b rest
  stamp : b = REPLACEMENT
  before : read.head? = some colon
  units : forall u, u ∈ a -> isPasswordUnit u = true
  next : rest.head? = some atSign

theorem userinfoRule_scrubs (value : List Nat) :
    Scrubs keepAny UserinfoCut [] value (userinfoRule.apply value) [] := by
  apply scrubs_replaceFrom (consumes_of_eats rfl) (fun _ _ _ => trivial)
  intro read rest m hhere
  have hinfo := userinfo_of_run (matchHere_mem hhere)
  have hmatch : m.text = (m.captured 1 ++ [colon]) ++ (m.captured 2 ++ [atSign]) := by
    rw [hinfo.text, List.append_assoc]
    rfl
  have hreplaced : userinfoRule.replace m =
      (m.captured 1 ++ [colon]) ++ (REPLACEMENT ++ [atSign]) := by
    rw [hinfo.replaced, List.append_assoc]
    rfl
  rw [hmatch, hreplaced]
  apply Scrubs.once fun _ _ => trivial
  have hread : ((m.captured 1 ++ [colon]).reverse ++ read).head? = some colon := by
    rw [List.reverse_append]
    rfl
  refine ⟨⟨Or.inl rfl, hinfo.password.ne_nil, Or.inl ?_, rfl⟩, rfl, hread, hinfo.password.units,
    rfl⟩
  rw [hread]
  rfl

theorem userinfoRule_unchanged {value : List Nat} (h : PasswordsScrubbed value) :
    userinfoRule.apply value = value := by
  apply replaceFrom_same (consumes_of_eats rfl)
  intro front back m hsplit hhere
  have hinfo := userinfo_of_run (matchHere_mem hhere)
  rcases hinfo.lead with ⟨scheme, before, hread, hscheme⟩
  rw [List.append_nil] at hread
  have hfront : front = before.reverse ++ (scheme ++ stringUnits "://") := by
    rw [← List.reverse_reverse front, hread, List.reverse_append, List.reverse_reverse]
  have hback := run_text (matchHere_mem hhere)
  rw [hinfo.text, List.append_assoc, List.cons_append, List.append_assoc] at hback
  have hpassword := h before.reverse scheme (m.captured 1) (m.captured 2) m.rest
    (by rw [hsplit, hfront, hback, List.append_assoc]; rfl) hscheme hinfo.user hinfo.password
  rw [hinfo.replaced, hinfo.text, hpassword]

/-!
## No password comes up later
-/

section Later

variable {kept : List Nat -> List Nat -> Prop} {read xs ys after : List Nat}

/-- A stretch of the result up to a stop was one before, with what is cut in it put back. -/
theorem stretch_of_scrubs {stretch back : List Nat} {stop : Nat} (hstop : stop ∉ REPLACEMENT)
    (hunits : forall u, u ∈ stretch -> isPasswordUnit u = true)
    (h : Scrubs kept UserCut read xs (stretch ++ stop :: back) after) :
    exists stretch' back', xs = stretch' ++ stop :: back' ∧
      (forall u, u ∈ stretch' -> isPasswordUnit u = true) ∧ (stretch ≠ [] -> stretch' ≠ []) ∧
      (read.head? = some slash -> stretch'.head? = some colon -> stretch.head? = some colon) ∧
      Scrubs kept UserCut (stop :: (stretch'.reverse ++ read)) back' back after := by
  generalize hall : stretch ++ stop :: back = ys at h
  induction h generalizing stretch with
  | nil => exact absurd hall (by simp)
  | @keep read xs ys after c hkept hrest ih =>
      cases stretch with
      | nil =>
          rw [List.nil_append, List.cons.injEq] at hall
          rcases hall with ⟨rfl, rfl⟩
          exact ⟨[], xs, rfl, hunits, fun hne => hne, fun _ hhead => hhead, hrest⟩
      | cons u stretch =>
          rw [List.cons_append, List.cons.injEq] at hall
          rcases hall with ⟨rfl, hall⟩
          rcases ih (fun v hv => hunits v (List.mem_cons_of_mem u hv)) hall with
            ⟨stretch', back', rfl, hunits', _, _, hback⟩
          refine ⟨u :: stretch', back', rfl, ?_, fun _ => List.cons_ne_nil _ _,
            fun _ hhead => hhead, ?_⟩
          · intro v hv
            cases hv with
            | head => exact hunits u List.mem_cons_self
            | tail _ hv => exact hunits' v hv
          · rwa [List.reverse_cons, List.append_assoc]
  | @swap read a b xs ys after hcut hrest ih =>
      have hlater : exists stretch₂, stretch = REPLACEMENT ++ stretch₂ ∧
          stretch₂ ++ stop :: back = ys := by
        rw [hcut.stamp] at hall
        rcases List.append_eq_append_iff.mp hall with ⟨excess, hover, hsplit⟩ | ⟨more, hmore, hsplit⟩
        · cases excess with
          | nil =>
              rw [List.append_nil] at hover
              exact ⟨[], by rw [hover, List.append_nil], hsplit⟩
          | cons v excess =>
              rw [List.cons_append, List.cons.injEq] at hsplit
              rw [hover, hsplit.1] at hstop
              exact absurd (List.mem_append_right _ List.mem_cons_self) hstop
        · exact ⟨more, hmore, hsplit.symm⟩
      rcases hlater with ⟨stretch₂, rfl, hall₂⟩
      rcases ih (fun v hv => hunits v (List.mem_append_right _ hv)) hall₂ with
        ⟨stretch', back', rfl, hunits', _, _, hback⟩
      have hne := hcut.safe.ne_nil
      refine ⟨a ++ stretch', back', (List.append_assoc _ _ _).symm, ?_, ?_, ?_, ?_⟩
      · intro v hv
        cases List.mem_append.mp hv with
        | inl hv => exact hcut.units v hv
        | inr hv => exact hunits' v hv
      · intro _
        exact List.append_ne_nil_of_left_ne_nil hne stretch'
      · intro hread hhead
        rw [List.head?_append_of_ne_nil _ hne] at hhead
        cases hcut.opens with
        | inl hslash => exact absurd hread hslash
        | inr hcolon => exact absurd hhead hcolon
      · rwa [List.reverse_append, List.append_assoc]

/-- What a cut takes before a `@` ends before it. -/
theorem before_atSign {a more text back : List Nat}
    (ha : forall u, u ∈ a -> isPasswordUnit u = true) (h : a ++ more = text ++ atSign :: back) :
    exists more', text = a ++ more' ∧ more = more' ++ atSign :: back := by
  rcases List.append_eq_append_iff.mp h with ⟨more', htext, hmore⟩ | ⟨excess, hover, hsplit⟩
  · exact ⟨more', htext, hmore⟩
  · cases excess with
    | nil =>
        rw [List.append_nil] at hover
        exact ⟨[], by rw [hover, List.append_nil], hsplit.symm⟩
    | cons u excess =>
        have hunit := ha u (hover ▸ List.mem_append_right text List.mem_cons_self)
        rw [← (List.cons.inj hsplit).1] at hunit
        exact absurd hunit (by decide)

/-- The rest of a replacement, up to the sign behind it, is not cut. -/
theorem rest_of_replacement {text back : List Nat} (htext : text ⊆ REPLACEMENT)
    (hread : text ≠ [] -> exists u, read.head? = some u ∧ u ∈ REPLACEMENT)
    (h : Scrubs kept UserCut read (text ++ atSign :: back) ys after) :
    exists back', ys = text ++ atSign :: back' := by
  generalize hall : text ++ atSign :: back = xs at h
  induction text generalizing read xs ys with
  | nil =>
      cases h with
      | nil => cases hall
      | keep hkept hrest =>
          rw [List.nil_append, List.cons.injEq] at hall
          rw [← hall.1]
          exact ⟨_, rfl⟩
      | @swap _ a _ _ _ _ hcut hrest =>
          cases a with
          | nil => exact absurd rfl hcut.safe.ne_nil
          | cons u a =>
              rw [List.nil_append, List.cons_append, List.cons.injEq] at hall
              have hunit := hcut.units u List.mem_cons_self
              rw [← hall.1] at hunit
              exact absurd hunit (by decide)
  | cons u text ih =>
      cases h with
      | nil => cases hall
      | keep hkept hrest =>
          rw [List.cons_append, List.cons.injEq] at hall
          rcases hall with ⟨rfl, hall⟩
          have hu := htext List.mem_cons_self
          rcases ih (fun v hv => htext (List.mem_cons_of_mem u hv)) (fun _ => ⟨u, rfl, hu⟩) _
            hall hrest with ⟨back', rfl⟩
          exact ⟨back', rfl⟩
      | @swap _ a _ xs' _ _ hcut hrest =>
          rcases hread (List.cons_ne_nil u text) with ⟨v, hv, hmem⟩
          cases hcut.whole with
          | inl houtside =>
              rcases houtside with ⟨w, hw, hout⟩
              rcases before_atSign hcut.units hall.symm with ⟨more, hmore, _⟩
              exact absurd (htext (hmore ▸ List.mem_append_left more hw)) hout
          | inr hbounds => exact absurd hmem (hbounds.1 v hv)

/-- A password that is the replacement stays the replacement. -/
theorem replacement_of_scrubs {back : List Nat}
    (h : Scrubs kept UserCut read (REPLACEMENT ++ atSign :: back) ys after) :
    exists back', ys = REPLACEMENT ++ atSign :: back' := by
  generalize hall : REPLACEMENT ++ atSign :: back = xs at h
  cases h with
  | nil => cases hall
  | @keep _ xs ys _ u hkept hrest =>
      have hcons := List.cons.inj hall
      rw [← hcons.2] at hrest
      rcases rest_of_replacement (List.tail_subset REPLACEMENT)
        (fun _ => ⟨u, rfl, hcons.1 ▸ List.mem_cons_self⟩) hrest with ⟨back', rfl⟩
      rw [← hcons.1]
      exact ⟨back', rfl⟩
  | @swap _ a b xs ys _ hcut hrest =>
      rcases before_atSign hcut.units hall.symm with ⟨more, hmore, hxs⟩
      rw [hxs] at hcut hrest
      have hwhole : more = [] := by
        cases hcut.whole with
        | inl houtside =>
            rcases houtside with ⟨w, hw, hout⟩
            exact absurd (hmore ▸ List.mem_append_left more hw) hout
        | inr hbounds =>
            cases more with
            | nil => rfl
            | cons v more =>
                have hmem : v ∈ REPLACEMENT := hmore ▸ List.mem_append_right a List.mem_cons_self
                exact absurd hmem (hbounds.2 v rfl)
      rw [hwhole] at hrest
      rcases rest_of_replacement (List.nil_subset _) (fun hne => absurd rfl hne) hrest with
        ⟨back', rfl⟩
      rw [hcut.stamp]
      exact ⟨back', rfl⟩

theorem unstamped_lead {scheme : List Nat} (h : UrlScheme scheme) :
    Unstamped (scheme ++ stringUnits "://") := by
  constructor
  · intro u hu
    rcases List.mem_append.mp hu with hu | hu
    · have hunit := h.units u hu
      constructor
      · rintro rfl
        exact absurd hunit (by decide)
      · rintro rfl
        exact absurd hunit (by decide)
    · have hall : forall v, v ∈ stringUnits "://" -> v ≠ unitOf '[' ∧ v ≠ unitOf ']' := by decide
      exact hall u hu
  · rw [getLast?_lead]
    exact fun heq => absurd heq (by decide)
  · exact ⟨slash, List.mem_append_right scheme (by decide), by decide⟩

/-- A URL whose password is not the replacement was one before. -/
theorem scrubbed_of_scrubs (h : Scrubs kept UserCut [] xs ys []) (hxs : PasswordsScrubbed xs) :
    PasswordsScrubbed ys := by
  intro front scheme user password back htext hscheme huser hpassword
  rw [htext] at h
  have hclear : Clear UserCut (scheme ++ stringUnits "://") :=
    fun _ _ _ _ hcut => hcut.safe.stamp.offStamp (unstamped_lead hscheme)
  rcases h.lift hclear (unstamped_lead hscheme).ne_nil with ⟨front', rest, rfl, _, _, hrest⟩
  have hread : ((scheme ++ stringUnits "://").reverse ++ (front'.reverse ++ [])).head? =
      some slash := by
    rw [List.reverse_append]
    rfl
  rcases stretch_of_scrubs (by decide) (fun u hu => password_of_user (huser.units u hu)) hrest with
    ⟨user', rest, rfl, hunits, hne, hhead, hrest⟩
  rcases stretch_of_scrubs (by decide) hpassword.units hrest with
    ⟨password', back', rfl, hpasswordUnits, hpasswordNe, _, _⟩
  have hpassword' : UrlPassword password' := ⟨hpasswordNe hpassword.ne_nil, hpasswordUnits⟩
  have hcolon : colon ∉ user' := by
    intro hmem
    rcases List.eq_append_cons_of_mem hmem with ⟨first, second, rfl, hfirst⟩
    have hfirst' : UrlUser first := by
      constructor
      · rintro rfl
        have hcolonHead := hhead hread rfl
        exact huser.colon (List.mem_of_mem_head? hcolonHead)
      · intro u hu
        exact user_of_password (hunits u (List.mem_append_left _ hu)) fun heq => hfirst (heq ▸ hu)
    have hsecond : UrlPassword (second ++ colon :: password') := by
      constructor
      · exact List.append_ne_nil_of_right_ne_nil second (List.cons_ne_nil _ _)
      · intro u hu
        rcases List.mem_append.mp hu with hu | hu
        · exact hunits u (List.mem_append_right _ (List.mem_cons_of_mem _ hu))
        · cases hu with
          | head => decide
          | tail _ hu => exact hpasswordUnits u hu
    have hall := hxs front' scheme first (second ++ colon :: password') back'
      (by simp only [List.append_assoc, List.cons_append]) hscheme hfirst' hsecond
    have hmem : colon ∈ REPLACEMENT := hall ▸ List.mem_append_right second List.mem_cons_self
    exact absurd hmem (by decide)
  have huser' : UrlUser user' :=
    ⟨hne huser.ne_nil, fun u hu => user_of_password (hunits u hu) fun heq => hcolon (heq ▸ hu)⟩
  have hreplaced := hxs front' scheme user' password' back' rfl hscheme huser' hpassword'
  rw [hreplaced] at hrest
  rcases replacement_of_scrubs hrest with ⟨back'', hback⟩
  exact (split_first hpassword.atSign (by decide) hback).1

end Later

end Redaction
end CatFactory
