import Mathlib.Data.List.Basic
import Mathlib.Data.List.Infix
import Mathlib.Data.List.TakeWhile

/-!
# Backtracking regular expressions

Patterns as the source's language matches them: from one position, every way to
match is listed in the order in which backtracking tries them, and the first one
is the match.  A position is the text read so far, last unit first, and the text
that is left.
-/

namespace CatFactory
namespace Foundation

inductive Regex (unit : Type) where
  | empty
  | one (accepts : unit -> Bool)
  /-- As many units of a class as there are, from `least` on and up to `most`. -/
  | many (accepts : unit -> Bool) (least : Nat) (most : Option Nat)
  /-- As few units of a class as the rest of the pattern allows. -/
  | few (accepts : unit -> Bool)
  | seq (first second : Regex unit)
  /-- The second part depends on the text of the first, as with a back reference. -/
  | after (first : Regex unit) (second : List unit -> Regex unit)
  | alt (first second : Regex unit)
  | group (index : Nat) (inner : Regex unit)
  /-- A condition on the units on both sides of the position. -/
  | edge (holds : Option unit -> Option unit -> Bool)
  /-- What was read ends in a match of `inner`. -/
  | behind (inner : Regex unit)
  /-- What is left begins with a match of `inner`. -/
  | ahead (inner : Regex unit)

structure Match (unit : Type) where
  text : List unit
  rest : List unit
  groups : List (Nat × List unit) := []
deriving DecidableEq

variable {unit : Type}

def Match.before (first second : Match unit) : Match unit where
  text := first.text ++ second.text
  rest := second.rest
  groups := first.groups ++ second.groups

/-- The units captured by a group, none where the group took no part. -/
def Match.captured (m : Match unit) (index : Nat) : List unit :=
  ((m.groups.find? fun g => g.1 = index).map (·.2)).getD []

/-- How long a greedy run of the class gets. -/
def runLength (accepts : unit -> Bool) (most : Option Nat) (rest : List unit) : Nat :=
  match most with
  | none => (rest.takeWhile accepts).length
  | some most => min most (rest.takeWhile accepts).length

def Match.taking (rest : List unit) (k : Nat) : Match unit where
  text := rest.take k
  rest := rest.drop k

/-- Every match from a position, the preferred one first. -/
def Regex.run : Regex unit -> List unit -> List unit -> List (Match unit)
  | .empty, _, rest => [⟨[], rest, []⟩]
  | .one accepts, _, rest =>
      match rest with
      | [] => []
      | c :: rest => if accepts c then [⟨[c], rest, []⟩] else []
  | .many accepts least most, _, rest =>
      ((List.range (runLength accepts most rest + 1)).reverse.filter (least ≤ ·)).map
        (Match.taking rest)
  | .few accepts, _, rest =>
      (List.range (runLength accepts none rest + 1)).map (Match.taking rest)
  | .seq first second, read, rest =>
      (first.run read rest).flatMap fun m =>
        (second.run (m.text.reverse ++ read) m.rest).map m.before
  | .after first second, read, rest =>
      (first.run read rest).flatMap fun m =>
        ((second m.text).run (m.text.reverse ++ read) m.rest).map m.before
  | .alt first second, read, rest => first.run read rest ++ second.run read rest
  | .group index inner, read, rest =>
      (inner.run read rest).map fun m => { m with groups := (index, m.text) :: m.groups }
  | .edge holds, read, rest => if holds read.head? rest.head? then [⟨[], rest, []⟩] else []
  | .behind inner, read, rest =>
      if (List.range (read.length + 1)).any fun k =>
          (inner.run (read.drop k) ((read.take k).reverse ++ rest)).any fun m =>
            m.text.length = k
      then [⟨[], rest, []⟩] else []
  | .ahead inner, read, rest => if (inner.run read rest).isEmpty then [] else [⟨[], rest, []⟩]

/-!
## Patterns built from the constructors
-/

namespace Regex

def all : List (Regex unit) -> Regex unit
  | [] => empty
  | r :: rest => seq r (all rest)

/-- At least one pattern is given. -/
def any : List (Regex unit) -> Regex unit
  | [] => one fun _ => false
  | [r] => r
  | r :: rest => alt r (any rest)

def optional (r : Regex unit) : Regex unit :=
  alt r empty

def start : Regex unit :=
  edge fun before _ => before.isNone

def finish : Regex unit :=
  edge fun _ after => after.isNone

variable [DecidableEq unit]

def lit (text : List unit) : Regex unit :=
  all (text.map fun c => one (· = c))

def oneOf (choices : List unit) : Regex unit :=
  one (· ∈ choices)

end Regex

/-!
## Search and replacement
-/

/-- The match preferred at this very position. -/
def Regex.matchHere (r : Regex unit) (read rest : List unit) : Option (Match unit) :=
  (r.run read rest).head?

/-- `test`: the pattern matches from some position on. -/
def Regex.test (r : Regex unit) : List unit -> List unit -> Bool
  | read, [] => !(r.run read []).isEmpty
  | read, c :: rest => !(r.run read (c :: rest)).isEmpty || r.test (c :: read) rest

def Regex.matches (r : Regex unit) (text : List unit) : Bool :=
  r.test [] text

/-- `exec` from a position: what is skipped, and the leftmost match. -/
def Regex.find (r : Regex unit) : List unit -> List unit -> Option (List unit × Match unit)
  | read, [] => (r.matchHere read []).map fun m => ([], m)
  | read, c :: rest =>
      match r.matchHere read (c :: rest) with
      | some m => some ([], m)
      | none => (r.find (c :: read) rest).map fun found => (c :: found.1, found.2)

/-- `replace` of every leftmost match from left to right.  `skip` counts the units
of a match that are still to be passed over. -/
def Regex.replaceFrom (r : Regex unit) (f : Match unit -> List unit) :
    Nat -> List unit -> List unit -> List unit
  | _, read, [] =>
      match r.matchHere read [] with
      | some m => f m
      | none => []
  | skip + 1, read, c :: rest => r.replaceFrom f skip (c :: read) rest
  | 0, read, c :: rest =>
      match r.matchHere read (c :: rest) with
      | none => c :: r.replaceFrom f 0 (c :: read) rest
      | some m =>
          if m.text.isEmpty then f m ++ c :: r.replaceFrom f 0 (c :: read) rest
          else f m ++ r.replaceFrom f (m.text.length - 1) (c :: read) rest

def Regex.replaceAll (r : Regex unit) (f : Match unit -> List unit) (text : List unit) :
    List unit :=
  r.replaceFrom f 0 [] text

/-- `matchAll`: the leftmost matches from left to right. -/
def Regex.matchesFrom (r : Regex unit) : Nat -> List unit -> List unit -> List (Match unit)
  | _, read, [] => (r.matchHere read []).toList
  | skip + 1, read, c :: rest => r.matchesFrom skip (c :: read) rest
  | 0, read, c :: rest =>
      match r.matchHere read (c :: rest) with
      | none => r.matchesFrom 0 (c :: read) rest
      | some m => m :: r.matchesFrom (m.text.length - 1) (c :: read) rest

/-- `replace` with a pattern that is not global: the leftmost match only. -/
def Regex.replaceFirst (r : Regex unit) (f : Match unit -> List unit) (text : List unit) :
    List unit :=
  match r.find [] text with
  | none => text
  | some found => found.1 ++ f found.2 ++ found.2.rest

/-!
## What a match is
-/

section Runs

variable {r first second : Regex unit} {read rest : List unit} {m : Match unit}

section Parts

attribute [local simp] Regex.run

theorem mem_run_seq : m ∈ (Regex.seq first second).run read rest <->
    exists x, x ∈ first.run read rest ∧
      exists y, y ∈ second.run (x.text.reverse ++ read) x.rest ∧ x.before y = m := by
  simp

theorem mem_run_after {second : List unit -> Regex unit} :
    m ∈ (Regex.after first second).run read rest <->
      exists x, x ∈ first.run read rest ∧
        exists y, y ∈ (second x.text).run (x.text.reverse ++ read) x.rest ∧ x.before y = m := by
  simp

theorem mem_run_alt : m ∈ (Regex.alt first second).run read rest <->
    m ∈ first.run read rest ∨ m ∈ second.run read rest := by
  simp

end Parts

/-- A match is read off the front of what is left. -/
theorem run_text (h : m ∈ r.run read rest) : rest = m.text ++ m.rest := by
  induction r generalizing read rest m with
  | empty =>
      rw [Regex.run, List.mem_singleton] at h
      rw [h]
      rfl
  | one accepts =>
      cases rest with
      | nil => cases h
      | cons c rest =>
          simp only [Regex.run] at h
          split at h
          · rw [List.mem_singleton] at h
            rw [h]
            rfl
          · cases h
  | many accepts least most =>
      rw [Regex.run, List.mem_map] at h
      rcases h with ⟨k, _, rfl⟩
      exact (List.take_append_drop k rest).symm
  | few accepts =>
      rw [Regex.run, List.mem_map] at h
      rcases h with ⟨k, _, rfl⟩
      exact (List.take_append_drop k rest).symm
  | seq first second ihFirst ihSecond =>
      rcases mem_run_seq.mp h with ⟨x, hx, y, hy, rfl⟩
      rw [ihFirst hx, ihSecond hy]
      exact (List.append_assoc _ _ _).symm
  | after first second ihFirst ihSecond =>
      rcases mem_run_after.mp h with ⟨x, hx, y, hy, rfl⟩
      rw [ihFirst hx, ihSecond x.text hy]
      exact (List.append_assoc _ _ _).symm
  | alt first second ihFirst ihSecond =>
      cases mem_run_alt.mp h with
      | inl h => exact ihFirst h
      | inr h => exact ihSecond h
  | group index inner ih =>
      rw [Regex.run, List.mem_map] at h
      rcases h with ⟨x, hx, rfl⟩
      have hinner : rest = x.text ++ x.rest := ih hx
      exact hinner
  | edge holds =>
      simp only [Regex.run] at h
      split at h
      · rw [List.mem_singleton] at h
        rw [h]
        rfl
      · cases h
  | behind inner ih =>
      simp only [Regex.run] at h
      split at h
      · rw [List.mem_singleton] at h
        rw [h]
        rfl
      · cases h
  | ahead inner ih =>
      simp only [Regex.run] at h
      split at h
      · cases h
      · rw [List.mem_singleton] at h
        rw [h]
        rfl

/-- The pattern captures nothing. -/
def Regex.groupFree : Regex unit -> Bool
  | .seq first second => first.groupFree && second.groupFree
  | .alt first second => first.groupFree && second.groupFree
  | .after _ _ => false
  | .group _ _ => false
  | _ => true

theorem run_groups (hfree : r.groupFree = true) (h : m ∈ r.run read rest) : m.groups = [] := by
  induction r generalizing read rest m with
  | empty =>
      rw [Regex.run, List.mem_singleton] at h
      rw [h]
  | one accepts =>
      cases rest with
      | nil => cases h
      | cons c rest =>
          simp only [Regex.run] at h
          split at h
          · rw [List.mem_singleton] at h
            rw [h]
          · cases h
  | many accepts least most =>
      rw [Regex.run, List.mem_map] at h
      rcases h with ⟨k, _, rfl⟩
      rfl
  | few accepts =>
      rw [Regex.run, List.mem_map] at h
      rcases h with ⟨k, _, rfl⟩
      rfl
  | seq first second ihFirst ihSecond =>
      rw [Regex.groupFree, Bool.and_eq_true] at hfree
      rcases mem_run_seq.mp h with ⟨x, hx, y, hy, rfl⟩
      rw [Match.before, ihFirst hfree.1 hx, ihSecond hfree.2 hy]
      rfl
  | after first second => cases hfree
  | alt first second ihFirst ihSecond =>
      rw [Regex.groupFree, Bool.and_eq_true] at hfree
      cases mem_run_alt.mp h with
      | inl h => exact ihFirst hfree.1 h
      | inr h => exact ihSecond hfree.2 h
  | group index inner ih => cases hfree
  | edge holds =>
      simp only [Regex.run] at h
      split at h
      · rw [List.mem_singleton] at h
        rw [h]
      · cases h
  | behind inner ih =>
      simp only [Regex.run] at h
      split at h
      · rw [List.mem_singleton] at h
        rw [h]
      · cases h
  | ahead inner ih =>
      simp only [Regex.run] at h
      split at h
      · cases h
      · rw [List.mem_singleton] at h
        rw [h]

theorem run_lit [DecidableEq unit] {text : List unit} (h : m ∈ (Regex.lit text).run read rest) :
    m.text = text := by
  induction text generalizing read rest m with
  | nil =>
      have hnil : m ∈ [(⟨[], rest, []⟩ : Match unit)] := h
      rw [List.mem_singleton.mp hnil]
  | cons c text ih =>
      have hseq : m ∈ (Regex.seq (Regex.one (· = c)) (Regex.lit text)).run read rest := h
      rcases mem_run_seq.mp hseq with ⟨x, hx, y, hy, rfl⟩
      cases rest with
      | nil => cases hx
      | cons d rest =>
          simp only [Regex.run] at hx
          split at hx
          · next hd =>
              rw [List.mem_singleton.mp hx] at hy ⊢
              rw [decide_eq_true_eq] at hd
              show d :: y.text = c :: text
              rw [ih hy, hd]
          · cases hx

theorem run_oneOf [DecidableEq unit] {choices : List unit}
    (h : m ∈ (Regex.oneOf choices).run read rest) : exists c, c ∈ choices ∧ m.text = [c] := by
  cases rest with
  | nil => cases h
  | cons c rest =>
      simp only [Regex.oneOf, Regex.run] at h
      split at h
      · next hc =>
          rw [List.mem_singleton.mp h]
          exact ⟨c, of_decide_eq_true hc, rfl⟩
      · cases h

theorem run_optional (h : m ∈ (Regex.optional r).run read rest) :
    m ∈ r.run read rest ∨ m.text = [] := by
  cases mem_run_alt.mp h with
  | inl h => exact Or.inl h
  | inr h =>
      rw [Regex.run, List.mem_singleton] at h
      rw [h]
      exact Or.inr rfl

theorem run_finish (h : m ∈ Regex.finish.run read rest) : rest = [] := by
  cases rest with
  | nil => rfl
  | cons c rest => cases h

/-- A pattern that is found matches at some position. -/
theorem exists_run_of_test (h : r.test read rest = true) :
    exists front back, rest = front ++ back ∧ r.run (front.reverse ++ read) back ≠ [] := by
  induction rest generalizing read with
  | nil =>
      refine ⟨[], [], rfl, ?_⟩
      intro hnil
      rw [List.reverse_nil, List.nil_append] at hnil
      rw [Regex.test, hnil] at h
      cases h
  | cons c rest ih =>
      rw [Regex.test, Bool.or_eq_true] at h
      cases h with
      | inl hhere =>
          refine ⟨[], c :: rest, rfl, ?_⟩
          intro hnil
          rw [List.reverse_nil, List.nil_append] at hnil
          rw [hnil] at hhere
          cases hhere
      | inr hlater =>
          rcases ih hlater with ⟨front, back, rfl, hrun⟩
          refine ⟨c :: front, back, rfl, ?_⟩
          rwa [List.reverse_cons, List.append_assoc]

end Runs

/-!
## Patterns that end on a literal
-/

/-- Every match of the pattern ends on one of the texts and ends the input. -/
def EndsOn (r : Regex unit) (texts : List (List unit)) : Prop :=
  forall read rest m, m ∈ r.run read rest -> m.rest = [] ∧ exists t, t ∈ texts ∧ t <:+ m.text

theorem EndsOn.seq {first second : Regex unit} {texts : List (List unit)}
    (h : EndsOn second texts) : EndsOn (Regex.seq first second) texts := by
  intro read rest m hm
  rcases mem_run_seq.mp hm with ⟨x, _, y, hy, rfl⟩
  rcases h _ _ y hy with ⟨hrest, t, ht, hsuffix⟩
  exact ⟨hrest, t, ht, hsuffix.trans (List.suffix_append x.text y.text)⟩

/-- Every match of the pattern is empty and ends the input. -/
def Finishes (r : Regex unit) : Prop :=
  forall read rest m, m ∈ r.run read rest -> m.text = [] ∧ m.rest = []

theorem finishes_empty_seq {r : Regex unit} (h : Finishes r) :
    Finishes (Regex.seq Regex.empty r) := by
  intro read rest m hm
  rcases mem_run_seq.mp hm with ⟨x, hx, y, hy, rfl⟩
  rw [Regex.run, List.mem_singleton] at hx
  subst hx
  exact h _ _ y hy

theorem finishes_finish : Finishes (Regex.all [(Regex.finish : Regex unit)]) := by
  intro read rest m hm
  rcases mem_run_seq.mp hm with ⟨x, hx, y, hy, rfl⟩
  rw [Regex.all, Regex.run, List.mem_singleton] at hy
  subst hy
  have hrest := run_text hx
  rw [run_finish hx] at hrest
  have hnil := List.append_eq_nil_iff.mp hrest.symm
  constructor
  · show x.text ++ [] = []
    rw [hnil.1]
    rfl
  · exact hnil.2

theorem EndsOn.lit [DecidableEq unit] {after : Regex unit} (h : Finishes after)
    (text : List unit) : EndsOn (Regex.seq (Regex.lit text) after) [text] := by
  intro read rest m hm
  rcases mem_run_seq.mp hm with ⟨x, hx, y, hy, rfl⟩
  rcases h _ _ y hy with ⟨htext, hrest⟩
  refine ⟨hrest, text, List.mem_singleton_self text, ?_⟩
  show text <:+ x.text ++ y.text
  rw [htext, run_lit hx, List.append_nil]

theorem EndsOn.mono {r : Regex unit} {texts more : List (List unit)} (h : EndsOn r texts)
    (hsub : texts ⊆ more) : EndsOn r more := by
  intro read rest m hm
  rcases h read rest m hm with ⟨hrest, t, ht, hsuffix⟩
  exact ⟨hrest, t, hsub ht, hsuffix⟩

theorem EndsOn.alt {first second after : Regex unit} {texts : List (List unit)}
    (hfirst : EndsOn (Regex.seq first after) texts)
    (hsecond : EndsOn (Regex.seq second after) texts) :
    EndsOn (Regex.seq (Regex.alt first second) after) texts := by
  intro read rest m hm
  rcases mem_run_seq.mp hm with ⟨x, hx, y, hy, rfl⟩
  cases mem_run_alt.mp hx with
  | inl hx => exact hfirst read rest _ (mem_run_seq.mpr ⟨x, hx, y, hy, rfl⟩)
  | inr hx => exact hsecond read rest _ (mem_run_seq.mpr ⟨x, hx, y, hy, rfl⟩)

theorem Match.before_before (x y z : Match unit) :
    (x.before y).before z = x.before (y.before z) := by
  simp [Match.before]

theorem EndsOn.assoc {first second after : Regex unit} {texts : List (List unit)}
    (h : EndsOn (Regex.seq first (Regex.seq second after)) texts) :
    EndsOn (Regex.seq (Regex.seq first second) after) texts := by
  intro read rest m hm
  rcases mem_run_seq.mp hm with ⟨xy, hxy, z, hz, rfl⟩
  rcases mem_run_seq.mp hxy with ⟨x, hx, y, hy, rfl⟩
  apply h read rest
  rw [Match.before_before]
  have hread : (x.before y).text.reverse ++ read = y.text.reverse ++ (x.text.reverse ++ read) := by
    rw [Match.before, List.reverse_append, List.append_assoc]
  rw [hread] at hz
  exact mem_run_seq.mpr ⟨x, hx, _, mem_run_seq.mpr ⟨y, hy, z, hz, rfl⟩, rfl⟩

/-- A pattern that is found ends the text on one of its literals. -/
theorem EndsOn.suffix {r : Regex unit} {texts : List (List unit)} (h : EndsOn r texts)
    {text : List unit} (hmatches : r.matches text = true) :
    exists t, t ∈ texts ∧ t <:+ text := by
  rcases exists_run_of_test hmatches with ⟨front, back, rfl, hrun⟩
  rcases List.exists_mem_of_ne_nil _ hrun with ⟨m, hm⟩
  rcases h _ _ m hm with ⟨hrest, t, ht, hsuffix⟩
  refine ⟨t, ht, ?_⟩
  rw [run_text hm, hrest, List.append_nil]
  exact hsuffix.trans (List.suffix_append front m.text)

end Foundation
end CatFactory
