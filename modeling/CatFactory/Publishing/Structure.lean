import CatFactory.Foundation.Rewriting
import CatFactory.Publishing.HostMarkdown

/-!
# What the helpers leave of a text

The units a host reads structure from are line ends, blanks, the characters of
fences and code spans, pipes and backslashes.  Making a line inert rewrites only
between them.
-/

namespace CatFactory
namespace Publishing

open Foundation

def structural : List Nat :=
  [newline, carriageReturn, 0x2028, 0x2029, space, backtick, tilde, pipe, backslash]

def PlainUnit (u : Nat) : Prop :=
  u ∉ structural

instance : DecidablePred PlainUnit := fun u =>
  inferInstanceAs (Decidable (u ∉ structural))

theorem plainUnit_of_digit {u : Nat} (h : isDigitUnit u = true) : PlainUnit u := by
  simp only [isDigitUnit, Bool.and_eq_true, decide_eq_true_eq] at h
  have hlow : 0x30 ≤ u := h.1
  have hhigh : u ≤ 0x39 := h.2
  simp only [PlainUnit, structural, newline, carriageReturn, space, backtick, tilde, pipe,
    backslash, List.mem_cons, List.not_mem_nil, or_false, not_or]
  omega

/-- Letters are not structural, so a word in any case is plain where its letters are. -/
theorem plainUnit_of_lower {u : Nat} (h : PlainUnit (lowerUnit u)) : PlainUnit u := by
  intro hu
  have hsame : lowerUnit u = u := by
    simp only [structural, List.mem_cons, List.not_mem_nil, or_false] at hu
    rcases hu with rfl | rfl | rfl | rfl | rfl | rfl | rfl | rfl | rfl <;> rfl
  rw [hsame] at h
  exact h hu

def plainText (text : List Nat) : Bool :=
  text.all fun u => decide (PlainUnit u)

theorem plainUnit_of_plainText {text : List Nat} (h : plainText text = true) {u : Nat}
    (hu : u ∈ text) : PlainUnit u :=
  of_decide_eq_true (List.all_eq_true.mp h u hu)

theorem reads_all {ok : Nat -> Prop} {rs : List (Regex Nat)}
    (h : forall r, r ∈ rs -> r.Reads ok) : (Regex.all rs).Reads ok := by
  induction rs with
  | nil => trivial
  | cons r rs ih =>
      constructor
      · exact h r List.mem_cons_self
      · exact ih fun r hr => h r (List.mem_cons_of_mem _ hr)

theorem reads_loose {text : String} (h : plainText (stringUnits text) = true) :
    (loose text).Reads PlainUnit := by
  apply reads_all
  intro r hr
  rcases List.mem_map.mp hr with ⟨c, hc, rfl⟩
  intro u hu
  have hlower : lowerUnit u = c := of_decide_eq_true hu
  exact plainUnit_of_lower (hlower ▸ plainUnit_of_plainText h hc)

theorem reads_looseOf {letters : String} (h : plainText (stringUnits letters) = true) :
    (looseOf letters).Reads PlainUnit := by
  intro u hu
  exact plainUnit_of_lower (plainUnit_of_plainText h (of_decide_eq_true hu))

theorem reads_any {ok : Nat -> Prop} {rs : List (Regex Nat)}
    (h : forall r, r ∈ rs -> r.Reads ok) : (Regex.any rs).Reads ok := by
  induction rs with
  | nil =>
      intro u hu
      cases hu
  | cons r rs ih =>
      cases rs with
      | nil => exact h r List.mem_cons_self
      | cons r' rs =>
          constructor
          · exact h r List.mem_cons_self
          · exact ih fun r hr => h r (List.mem_cons_of_mem _ hr)

theorem reads_suffixed {word : String} {ending : Regex Nat}
    (h : plainText (stringUnits word) = true) (hending : ending.Reads PlainUnit) :
    (Regex.all [loose word, Regex.optional ending]).Reads PlainUnit :=
  ⟨reads_loose h, ⟨hending, trivial⟩, trivial⟩

theorem reads_closingKeywords : CLOSING_KEYWORDS.Reads PlainUnit := by
  apply reads_any
  intro r hr
  simp only [List.mem_cons, List.not_mem_nil, or_false] at hr
  rcases hr with rfl | rfl | rfl | rfl | rfl | rfl | rfl | rfl | rfl
  · exact reads_suffixed (by decide +kernel) (reads_looseOf (by decide +kernel))
  · exact reads_loose (by decide +kernel)
  · exact reads_loose (by decide +kernel)
  · exact ⟨reads_loose (by decide +kernel), reads_looseOf (by decide +kernel), trivial⟩
  · exact reads_loose (by decide +kernel)
  · exact reads_suffixed (by decide +kernel) (reads_looseOf (by decide +kernel))
  · exact reads_loose (by decide +kernel)
  · exact reads_suffixed (by decide +kernel)
      ⟨reads_loose (by decide +kernel), reads_loose (by decide +kernel)⟩
  · exact reads_loose (by decide +kernel)

theorem reads_triggers : AUTO_LINK_TRIGGERS.Reads PlainUnit := by
  apply reads_any
  intro r hr
  simp only [List.mem_cons, List.not_mem_nil, or_false] at hr
  rcases hr with rfl | rfl | rfl | rfl
  · exact ⟨⟨trivial, reads_closingKeywords, trivial⟩, trivial, trivial⟩
  · exact ⟨reads_loose (by decide +kernel), trivial, trivial⟩
  · exact ⟨reads_loose (by decide +kernel), trivial, trivial⟩
  · exact ⟨reads_loose (by decide +kernel), trivial, trivial⟩

theorem plain_trigger {read rest : List Nat} {m : Match Nat}
    (h : m ∈ AUTO_LINK_TRIGGERS.run read rest) : Plain structural m.text := by
  constructor
  · exact consumes_of_eats (by decide +kernel) read rest m h
  · exact run_reads reads_triggers h

theorem plain_decimal (n : Nat) {u : Nat} (hu : u ∈ stringUnits (toString n)) :
    PlainUnit u := by
  rcases List.mem_flatMap.mp hu with ⟨c, hc, hu⟩
  have hdigit : c.isDigit = true := by
    apply @Nat.isDigit_of_mem_toDigits 10 n c (by decide) (by decide)
    simpa using hc
  simp only [Char.isDigit, Bool.and_eq_true, decide_eq_true_eq] at hdigit
  have hlow : 0x30 ≤ c.toNat := hdigit.1
  have hhigh : c.toNat ≤ 0x39 := hdigit.2
  rw [codeUnits, if_pos (by omega), List.mem_singleton] at hu
  apply plainUnit_of_digit
  simp only [isDigitUnit, Bool.and_eq_true, decide_eq_true_eq, hu]
  exact ⟨hlow, hhigh⟩

theorem plain_defused {m : Match Nat} (h : Plain structural m.text) :
    Plain structural (defused m) := by
  constructor
  · exact List.cons_ne_nil _ _
  · intro u hu
    simp only [defused, List.mem_append] at hu
    rcases hu with hu | hu | hu | hu
    · exact @plainUnit_of_plainText (stringUnits "&#") (by decide +kernel) u hu
    · exact plain_decimal _ hu
    · exact @plainUnit_of_plainText (stringUnits ";") (by decide +kernel) u hu
    · split at hu
      · cases hu
      · exact h.free u (List.mem_of_mem_tail hu)

/-!
## Lines
-/

theorem mapOutside_rewrites {fn : List Nat -> List Nat}
    (hfn : forall text, Rewrites structural text (fn text)) (read rest : List Nat) :
    Rewrites structural rest (mapOutsideCodeSpansFrom fn read rest) := by
  fun_induction mapOutsideCodeSpansFrom fn read rest with
  | case1 read rest hspan => exact hfn rest
  | case2 read rest skipped span hspan ih =>
      have hleft := leftmost_of_find hspan
      have hall := (hfn skipped).append ((Rewrites.refl span.text).append ih)
      rwa [← hleft.text] at hall

theorem inertLine_rewrites (line : List Nat) : Rewrites structural line (inertLine line) := by
  apply mapOutside_rewrites
  intro text
  apply replaceFrom_rewrites
  intro read rest m hm
  exact ⟨plain_trigger hm, plain_defused (plain_trigger hm)⟩

end Publishing
end CatFactory
