import CatFactory.Redaction.Tokens

/-!
# What the rules cut

Each rule replaces the secret part of a match and keeps the rest of it: what follows the
name of a scheme, the value of a header or of a field, the password of a URL.  Each such
part begins and ends at a boundary.
-/

namespace CatFactory
namespace Redaction

open Foundation

variable {stops : Nat -> Bool}

/-!
## Captures
-/

theorem run_group {r : Regex Nat} (hfree : r.groupFree = true) {index : Nat}
    {read rest : List Nat} {m : Match Nat} (h : m ∈ (Regex.group index r).run read rest) :
    r.Accepts m.text ∧ m.groups = [(index, m.text)] := by
  constructor
  · have haccepts := accepts_of_run h
    exact haccepts
  · rw [Regex.run, List.mem_map] at h
    rcases h with ⟨x, hx, rfl⟩
    show (index, x.text) :: x.groups = [(index, x.text)]
    rw [run_groups hfree hx]

theorem mem_group {r : Regex Nat} {index : Nat} {read rest : List Nat} {m : Match Nat}
    (h : m ∈ (Regex.group index r).run read rest) :
    exists x, x ∈ r.run read rest ∧ x.text = m.text := by
  rw [Regex.run, List.mem_map] at h
  rcases h with ⟨x, hx, rfl⟩
  exact ⟨x, hx, rfl⟩

theorem group_many_ends {accepts : Nat -> Bool} {index least : Nat} {read rest : List Nat}
    {m : Match Nat}
    (h : (Regex.group index (Regex.many accepts least none)).matchHere read rest = some m) :
    m.rest.head?.any accepts = false := by
  rcases matchHere_group_some h with ⟨x, hx, _, hrest⟩
  rw [← hrest]
  exact matchHere_many_next hx

/-!
## Units
-/

theorem not_word_of_space {u : Nat} (h : isSpaceUnit u = true) : isWordUnit u = false := by
  rw [isSpaceUnit, Bool.or_eq_true, decide_eq_true_eq, Bool.and_eq_true, decide_eq_true_eq,
    decide_eq_true_eq] at h
  cases h with
  | inl hlisted =>
      have hall : forall v, v ∈ [0x09, 0x0A, 0x0B, 0x0C, 0x0D, 0x20, 0xA0, 0x1680, 0x2028, 0x2029,
          0x202F, 0x205F, 0x3000, 0xFEFF] -> isWordUnit v = false := by decide
      exact hall u hlisted
  | inr hrange =>
      have hhigh : forall last, last < 0x80 -> decide (u ≤ last) = false := by
        intro last hlast
        exact decide_eq_false (by omega)
      have hother : decide (u = unitOf '_') = false := by
        apply decide_eq_false
        rintro rfl
        exact absurd hrange.1 (by decide)
      rw [isWordUnit, isUpperUnit, isLowerUnit, isDigitUnit, hhigh _ (by decide),
        hhigh _ (by decide), hhigh _ (by decide), hother]
      simp

theorem not_word_of_listed {text : String}
    (htext : forall u, u ∈ stringUnits text -> isWordUnit u = false) {u : Nat}
    (h : isSpaceUnit u = true ∨ u ∈ stringUnits text) : isWordUnit u = false := by
  cases h with
  | inl h => exact not_word_of_space h
  | inr h => exact htext u h

/-- A class of white space and of some units that are in no word. -/
theorem any_alphanumeric_of_stop (hstops : forall u, stops u = true -> isWordUnit u = false)
    {next : Option Nat} (h : next.any (!stops ·) = false) : next.any isAlphanumeric = false := by
  cases next with
  | none => rfl
  | some u =>
      apply any_alphanumeric_eq_false
      apply hstops
      simpa using h

/-- White space, quotes and what parts a name from its value. -/
def separatorUnit (u : Nat) : Prop :=
  isSpaceUnit u = true ∨ u ∈ stringUnits "\"':="

theorem separator_run {read rest : List Nat} {m : Match Nat} (h : m ∈ separator.run read rest) :
    m.text ≠ [] ∧ forall u, u ∈ m.text -> separatorUnit u := by
  constructor
  · exact consumes_of_eats rfl _ _ m h
  · have hquote : forall u, decide (u ∈ stringUnits "\"'") = true -> separatorUnit u := by
      intro u hu
      have hsub : stringUnits "\"'" ⊆ stringUnits "\"':=" := by decide
      exact Or.inr (hsub (of_decide_eq_true hu))
    have hsign : forall u, decide (u ∈ stringUnits ":=") = true -> separatorUnit u := by
      intro u hu
      have hsub : stringUnits ":=" ⊆ stringUnits "\"':=" := by decide
      exact Or.inr (hsub (of_decide_eq_true hu))
    have hwithin : separator.Within separatorUnit :=
      ⟨⟨hquote, trivial⟩, fun u hu => Or.inl hu, hsign, fun u hu => Or.inl hu, ⟨hquote, trivial⟩,
        trivial⟩
    exact accepts_within hwithin (accepts_of_run h)

/-!
## A value behind its name
-/

/-- A name, a separator, and a value up to a unit that stops it. -/
def labelled (name : Regex Nat) (stops : Nat -> Bool) (least : Nat) : Regex Nat :=
  Regex.all
    [wordEdge, Regex.group 1 name, Regex.group 2 separator,
      Regex.group 3 (Regex.many (!stops ·) least none)]

/-- The parts of a labelled value. -/
structure Labelled (stops : Nat -> Bool) (least : Nat) (m : Match Nat) : Prop where
  text : m.text = m.captured 1 ++ (m.captured 2 ++ m.captured 3)
  separator_ne_nil : m.captured 2 ≠ []
  separator : forall u, u ∈ m.captured 2 -> separatorUnit u
  value : forall u, u ∈ m.captured 3 -> stops u = false
  length : least ≤ (m.captured 3).length
  next : m.rest.head?.any (!stops ·) = false

theorem labelled_of_matchHere {name : Regex Nat} (hname : name.groupFree = true) {least : Nat}
    {read rest : List Nat} {m : Match Nat}
    (h : (labelled name stops least).matchHere read rest = some m) : Labelled stops least m := by
  have hlast : (Regex.all ([wordEdge, Regex.group 1 name, Regex.group 2 separator] ++
      [Regex.group 3 (Regex.many (!stops ·) least none)])).matchHere read rest = some m := h
  have hnext := matchHere_all_last (fun rest => rest.head?.any (!stops ·) = false)
    (fun _ _ _ hvalue => group_many_ends hvalue) hlast
  rcases mem_run_seq.mp (matchHere_mem h) with ⟨_, hedge, _, htail, rfl⟩
  rcases run_wordEdge.mp hedge with ⟨_, rfl⟩
  rcases mem_run_seq.mp htail with ⟨label, hlabel, _, htail₁, rfl⟩
  rcases mem_run_seq.mp htail₁ with ⟨sign, hsign, _, htail₂, rfl⟩
  rcases mem_run_seq.mp htail₂ with ⟨value, hvalue, final, hfinal, rfl⟩
  rw [Regex.all, Regex.run, List.mem_singleton] at hfinal
  subst hfinal
  have hlabel' := run_group hname hlabel
  have hsign' := run_group rfl hsign
  have hvalue' := run_group rfl hvalue
  generalize hm : (⟨[], rest, []⟩ : Match Nat).before (label.before (sign.before
    (value.before ⟨[], value.rest, []⟩))) = m at hnext ⊢
  have htext : m.text = label.text ++ (sign.text ++ value.text) := by
    rw [← hm]
    show [] ++ (label.text ++ (sign.text ++ (value.text ++ []))) = _
    rw [List.append_nil, List.nil_append]
  have hgroups : m.groups = [(1, label.text), (2, sign.text), (3, value.text)] := by
    rw [← hm]
    show [] ++ (label.groups ++ (sign.groups ++ (value.groups ++ []))) = _
    rw [hlabel'.2, hsign'.2, hvalue'.2]
    rfl
  have hname₁ : m.captured 1 = label.text := by
    rw [Match.captured, hgroups]
    rfl
  have hsign₂ : m.captured 2 = sign.text := by
    rw [Match.captured, hgroups]
    rfl
  have hvalue₃ : m.captured 3 = value.text := by
    rw [Match.captured, hgroups]
    rfl
  rcases mem_group hsign with ⟨inner, hinner, hsame⟩
  have hseparator := separator_run hinner
  rw [hsame] at hseparator
  rcases hvalue'.1 with ⟨hunits, hlength, _⟩
  constructor
  · rw [hname₁, hsign₂, hvalue₃]
    exact htext
  · rw [hsign₂]
    exact hseparator.1
  · rw [hsign₂]
    exact hseparator.2
  · rw [hvalue₃]
    intro u hu
    simpa using hunits u hu
  · rw [hvalue₃]
    exact hlength
  · exact hnext

/-!
## The cuts of the rules
-/

/-- A rule that asks nothing of the positions it keeps. -/
def keepAny (_ _ : List Nat) : Prop :=
  True

theorem separatorUnit_not_word {u : Nat} (h : separatorUnit u) : isWordUnit u = false :=
  not_word_of_listed (by decide) h

/-- The unit before a labelled value is one of the separator. -/
theorem Labelled.head {least : Nat} {m : Match Nat} (h : Labelled stops least m)
    (read : List Nat) :
    exists u, ((m.captured 1 ++ m.captured 2).reverse ++ read).head? = some u ∧
      separatorUnit u := by
  have hne := h.separator_ne_nil
  refine ⟨(m.captured 2).getLast hne, ?_, h.separator _ (List.getLast_mem hne)⟩
  rw [List.reverse_append, List.append_assoc,
    List.head?_append_of_ne_nil _ (List.reverse_ne_nil_iff.mpr hne), List.head?_reverse,
    List.getLast?_eq_getLast_of_ne_nil hne]

theorem Labelled.safeCut {least : Nat} {m : Match Nat} (h : Labelled stops least m)
    (hleast : 0 < least) (hstops : forall u, stops u = true -> isWordUnit u = false)
    (read : List Nat) :
    SafeCut ((m.captured 1 ++ m.captured 2).reverse ++ read) (m.captured 3) REPLACEMENT
      m.rest := by
  constructor
  · exact Or.inl rfl
  · exact List.ne_nil_of_length_pos (Nat.lt_of_lt_of_le hleast h.length)
  · rcases h.head read with ⟨u, hu, hunit⟩
    rw [hu]
    exact Or.inl (separatorUnit_not_word hunit)
  · exact any_alphanumeric_of_stop hstops h.next

/-- Cutting the value of a match and nothing else. -/
theorem Labelled.scrubs {least : Nat} {m : Match Nat}
    {cut : List Nat -> List Nat -> List Nat -> List Nat -> Prop} (h : Labelled stops least m)
    {read : List Nat}
    (hcut : cut ((m.captured 1 ++ m.captured 2).reverse ++ read) (m.captured 3) REPLACEMENT
      m.rest) :
    Scrubs keepAny cut read m.text (m.captured 1 ++ (m.captured 2 ++ REPLACEMENT)) m.rest := by
  have honce : Scrubs keepAny cut read
      ((m.captured 1 ++ m.captured 2) ++ (m.captured 3 ++ []))
      ((m.captured 1 ++ m.captured 2) ++ (REPLACEMENT ++ [])) m.rest :=
    Scrubs.once (fun _ _ => trivial) hcut
  rw [h.text]
  rwa [List.append_nil, List.append_nil, List.append_assoc, List.append_assoc] at honce

theorem endsHeader_not_word (u : Nat) (h : endsHeader u = true) : isWordUnit u = false := by
  rw [endsHeader, Bool.or_eq_true, decide_eq_true_eq] at h
  exact not_word_of_listed (by decide) h

theorem endsField_not_word (u : Nat) (h : endsField u = true) : isWordUnit u = false := by
  rw [endsField, Bool.or_eq_true, decide_eq_true_eq] at h
  exact not_word_of_listed (by decide) h

/-- The value of a header, or of a field, that is cut as a whole. -/
structure ValueCut (stops : Nat -> Bool) (read a b rest : List Nat) : Prop where
  safe : SafeCut read a b rest
  stamp : b = REPLACEMENT
  before : exists u, read.head? = some u ∧ separatorUnit u
  units : forall u, u ∈ a -> stops u = false
  next : rest.head?.any (!stops ·) = false

theorem Labelled.valueCut {least : Nat} {m : Match Nat} (h : Labelled stops least m)
    (hleast : 0 < least) (hstops : forall u, stops u = true -> isWordUnit u = false)
    (read : List Nat) :
    ValueCut stops ((m.captured 1 ++ m.captured 2).reverse ++ read) (m.captured 3) REPLACEMENT
      m.rest where
  safe := h.safeCut hleast hstops read
  stamp := rfl
  before := h.head read
  units := h.value
  next := h.next

theorem headerRule_scrubs (value : List Nat) :
    Scrubs keepAny (ValueCut endsHeader) [] value (headerRule.apply value) [] := by
  apply scrubs_replaceFrom (consumes_of_eats rfl) (fun _ _ _ => trivial)
  intro read rest m hhere
  have hparts : Labelled endsHeader 1 m := labelled_of_matchHere rfl hhere
  exact hparts.scrubs (hparts.valueCut Nat.one_pos endsHeader_not_word read)

/-- A cut within the user or the password of a URL, or outside of both. -/
structure UserCut (read a b rest : List Nat) : Prop where
  safe : SafeCut read a b rest
  stamp : b = REPLACEMENT
  units : forall u, u ∈ a -> isPasswordUnit u = true
  opens : read.head? ≠ some (unitOf '/') ∨ a.head? ≠ some (unitOf ':')
  whole : (exists u, u ∈ a ∧ u ∉ REPLACEMENT) ∨
    ((forall u, read.head? = some u -> u ∉ REPLACEMENT) ∧
      forall u, rest.head? = some u -> u ∉ REPLACEMENT)

theorem isPasswordUnit_of_not_endsField {u : Nat} (h : endsField u = false) :
    isPasswordUnit u = true := by
  rw [endsField, Bool.or_eq_false_iff, decide_eq_false_iff_not] at h
  have hsub : stringUnits "/@" ⊆ stringUnits "\"',&\x7d@/" := by decide
  rw [isPasswordUnit, h.1, decide_eq_false fun hmem => h.2 (hsub hmem)]
  rfl

theorem fieldRule_scrubs (value : List Nat) :
    Scrubs keepAny (ValueCut endsField) [] value (fieldRule.apply value) [] := by
  apply scrubs_replaceFrom (consumes_of_eats rfl) (fun _ _ _ => trivial)
  intro read rest m hhere
  have hparts : Labelled endsField 4 m := labelled_of_matchHere rfl hhere
  show Scrubs keepAny (ValueCut endsField) read m.text
    (if looksLikeSecretValue (m.captured 3) then m.captured 1 ++ (m.captured 2 ++ REPLACEMENT)
      else m.text) m.rest
  split
  · exact hparts.scrubs (hparts.valueCut (by decide) endsField_not_word read)
  · exact Scrubs.same fun _ _ _ _ => trivial

/-- A value stands between two units that are in no replacement. -/
theorem ValueCut.userCut {read a b rest : List Nat} (h : ValueCut endsField read a b rest) :
    UserCut read a b rest := by
  have hseparator : forall u, u ∈ REPLACEMENT -> ¬ separatorUnit u := by
    have hnone : forall u, u ∈ REPLACEMENT -> isSpaceUnit u = false ∧ u ∉ stringUnits "\"':=" := by
      decide
    intro u hu hunit
    cases hunit with
    | inl hspace =>
        rw [(hnone u hu).1] at hspace
        cases hspace
    | inr hlisted => exact (hnone u hu).2 hlisted
  have hstop : forall u, u ∈ REPLACEMENT -> endsField u = false := by decide
  rcases h.before with ⟨u, hu, hunit⟩
  constructor
  · exact h.safe
  · exact h.stamp
  · intro v hv
    exact isPasswordUnit_of_not_endsField (h.units v hv)
  · left
    rw [hu]
    intro heq
    cases heq
    cases hunit with
    | inl hspace => exact absurd hspace (by decide)
    | inr hlisted => exact absurd hlisted (by decide)
  · right
    constructor
    · intro v hv hmem
      rw [hu] at hv
      cases hv
      exact hseparator u hmem hunit
    · intro v hv hmem
      have hnext := h.next
      rw [hv, Option.any_some, hstop v hmem] at hnext
      cases hnext

theorem isPasswordUnit_of_tokenUnit {u : Nat} (h : tokenUnit "_.-" u = true) :
    isPasswordUnit u = true := by
  rw [tokenUnit, Bool.or_eq_true, decide_eq_true_eq] at h
  cases h with
  | inl halnum =>
      have hword := wordUnit_of_alphanumeric halnum
      have hspace : isSpaceUnit u = false := by
        cases hu : isSpaceUnit u with
        | false => rfl
        | true => rw [not_word_of_space hu] at hword; cases hword
      have hother : u ∉ stringUnits "/@" := by
        have hnone : forall v, v ∈ stringUnits "/@" -> isWordUnit v = false := by decide
        intro hmem
        rw [hnone u hmem] at hword
        cases hword
      rw [isPasswordUnit, hspace, decide_eq_false hother]
      rfl
  | inr hlisted =>
      have hall : forall v, v ∈ stringUnits "_.-" -> isPasswordUnit v = true := by decide
      exact hall u hlisted

theorem TokenCut.userCut {r : Regex Nat} {read a b rest : List Nat}
    (h : TokenCut r read a b rest) :
    UserCut read a b rest := by
  constructor
  · exact h.safe
  · exact h.stamp
  · exact fun u hu => isPasswordUnit_of_tokenUnit (h.text.units u hu)
  · right
    intro hhead
    have halnum := h.text.head
    rw [hhead] at halnum
    cases halnum
  · left
    rcases h.text.other with ⟨u, hu, hout⟩
    exact ⟨u, hu, fun hmem => hout (List.mem_cons_of_mem _ hmem)⟩

/-- White space behind the name of a scheme, and the secret behind it. -/
structure SchemeCut (read a b rest : List Nat) : Prop where
  safe : SafeCut read a b rest
  stamp : b = unitOf ' ' :: REPLACEMENT
  head : a.head?.any isSpaceUnit = true

theorem schemeRule_scrubs (value : List Nat) :
    Scrubs keepAny SchemeCut [] value (schemeRule.apply value) [] := by
  apply scrubs_replaceFrom (consumes_of_eats rfl) (fun _ _ _ => trivial)
  intro read rest m hhere
  have hends : m.rest.head?.any (tokenUnit "._+/=~-") = false := by
    have hlast : (Regex.all ([wordEdge,
        Regex.group 1 (Regex.any [loose "bearer", loose "basic", loose "token"]), spaces 1] ++
        [Regex.group 2 (Regex.many (tokenUnit "._+/=~-") 8 none)])).matchHere read rest =
        some m := hhere
    exact matchHere_all_last (fun rest => rest.head?.any (tokenUnit "._+/=~-") = false)
      (fun _ _ _ hvalue => group_many_ends hvalue) hlast
  rcases mem_run_seq.mp (matchHere_mem hhere) with ⟨_, hedge, _, htail, rfl⟩
  rcases run_wordEdge.mp hedge with ⟨_, rfl⟩
  rcases mem_run_seq.mp htail with ⟨word, hword, _, htail₁, rfl⟩
  rcases mem_run_seq.mp htail₁ with ⟨blank, hblank, _, htail₂, rfl⟩
  rcases mem_run_seq.mp htail₂ with ⟨secret, hsecret, final, hfinal, rfl⟩
  rw [Regex.all, Regex.run, List.mem_singleton] at hfinal
  subst hfinal
  have hword' := run_group rfl hword
  have hsecret' := run_group rfl hsecret
  have hblankGroups := run_groups rfl hblank
  rcases accepts_of_run hblank with ⟨hspaces, hpos, _⟩
  generalize hm : (⟨[], rest, []⟩ : Match Nat).before (word.before (blank.before
    (secret.before ⟨[], secret.rest, []⟩))) = m at hends ⊢
  have htext : m.text = word.text ++ ((blank.text ++ secret.text) ++ []) := by
    rw [← hm]
    show [] ++ (word.text ++ (blank.text ++ (secret.text ++ []))) = _
    rw [List.append_nil, List.append_nil, List.nil_append]
  have hcaptured : m.captured 1 = word.text := by
    have hgroups : m.groups = [(1, word.text), (2, secret.text)] := by
      rw [← hm]
      show [] ++ (word.groups ++ (blank.groups ++ (secret.groups ++ []))) = _
      rw [hword'.2, hblankGroups, hsecret'.2]
      rfl
    rw [Match.captured, hgroups]
    rfl
  show Scrubs keepAny SchemeCut read m.text
    (if looksLikeSecretValue (m.captured 2) then m.captured 1 ++ unitOf ' ' :: REPLACEMENT
      else m.text) m.rest
  split
  · rw [hcaptured, htext]
    rw [← List.append_nil (unitOf ' ' :: REPLACEMENT)]
    apply Scrubs.once fun _ _ => trivial
    have hne : blank.text ≠ [] := List.ne_nil_of_length_pos hpos
    have hhead : (blank.text ++ secret.text).head? = some (blank.text.head hne) := by
      rw [List.head?_append_of_ne_nil _ hne, List.head?_eq_some_head hne]
    have hspace := hspaces _ (List.head_mem hne)
    refine ⟨⟨Or.inr rfl, List.append_ne_nil_of_left_ne_nil hne secret.text, ?_, ?_⟩, rfl, ?_⟩
    · right
      rw [hhead]
      exact not_word_of_space hspace
    · rw [List.nil_append]
      cases hnext : m.rest.head? with
      | none => rfl
      | some u =>
          rw [hnext, Option.any_some, tokenUnit, Bool.or_eq_false_iff] at hends
          exact hends.1
    · rw [hhead]
      exact hspace
  · exact Scrubs.same fun _ _ _ _ => trivial

end Redaction
end CatFactory
