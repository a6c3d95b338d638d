import CatFactory.Foundation.CodeUnits
import CatFactory.Foundation.RegexSearch

/-!
# Private key blocks

A pasted private key is dropped from its armor header to the next armor footer.
The code looks for headers and footers in turn.  That is the same as replacing
every match of one pattern, header, shortest body and footer.

A string is the list of its UTF-16 units.
-/

namespace CatFactory
namespace Redaction

open Foundation

variable {read rest : List Nat}

def REPLACEMENT : List Nat :=
  stringUnits "[REDACTED]"

/-- `[ A-Z0-9]` -/
def isArmorUnit (u : Nat) : Bool :=
  u = unitOf ' ' || isUpperUnit u || isDigitUnit u

def literal (text : String) : Regex Nat :=
  Regex.lit (stringUnits text)

/-- `/-----BEGIN[ A-Z0-9]*PRIVATE KEY[ A-Z0-9]*-----/g`, and so with `END`. -/
def armorMarker (label : String) : Regex Nat :=
  Regex.all [literal "-----", literal label, Regex.many isArmorUnit 0 none,
    literal "PRIVATE KEY", Regex.many isArmorUnit 0 none, literal "-----"]

def PEM_PRIVATE_KEY_BEGIN : Regex Nat :=
  armorMarker "BEGIN"

def PEM_PRIVATE_KEY_END : Regex Nat :=
  armorMarker "END"

/-- A header, the shortest body that a footer follows, and the footer. -/
def PEM_PRIVATE_KEY_BLOCK : Regex Nat :=
  Regex.seq PEM_PRIVATE_KEY_BEGIN (Regex.seq (Regex.few fun _ => true) PEM_PRIVATE_KEY_END)

/-!
## What an armor marker is
-/

def dash : Nat :=
  unitOf '-'

/-- Ten dashes, one of them first and one of them last. -/
structure Armored (text : List Nat) : Prop where
  dashes : text.count dash = 10
  first : text.head? = some dash
  last : text.getLast? = some dash

theorem count_dash_many {m : Match Nat}
    (h : m ∈ (Regex.many isArmorUnit 0 none).run read rest) : m.text.count dash = 0 := by
  rw [Regex.run, List.mem_map] at h
  rcases h with ⟨k, hk, rfl⟩
  rw [List.count_eq_zero]
  intro hdash
  have hstarts : rest.take k <+: rest.takeWhile isArmorUnit := by
    rw [List.mem_filter, List.mem_reverse, List.mem_range, runLength, Nat.lt_succ_iff] at hk
    exact List.prefix_of_prefix_length_le (List.take_prefix k rest) (List.takeWhile_prefix _)
      ((List.length_take_le k rest).trans hk.1)
  have harmor := List.mem_takeWhile_imp (hstarts.subset hdash)
  exact absurd harmor (by decide)

theorem armored_of_run {label : String} (hlabel : (stringUnits label).count dash = 0)
    {m : Match Nat} (h : m ∈ (armorMarker label).run read rest) :
    Armored m.text := by
  rcases mem_run_seq.mp h with ⟨opening, hopening, _, hrest, rfl⟩
  rcases mem_run_seq.mp hrest with ⟨kind, hkind, _, hrest₂, rfl⟩
  rcases mem_run_seq.mp hrest₂ with ⟨before, hbefore, _, hrest₃, rfl⟩
  rcases mem_run_seq.mp hrest₃ with ⟨key, hkey, _, hrest₄, rfl⟩
  rcases mem_run_seq.mp hrest₄ with ⟨after, hafter, _, hrest₅, rfl⟩
  rcases mem_run_seq.mp hrest₅ with ⟨closing, hclosing, last, hlast, rfl⟩
  have hlastText : last.text = [] := by
    rw [Regex.all, Regex.run, List.mem_singleton] at hlast
    rw [hlast]
  have htext : (opening.before (kind.before (before.before (key.before
      (after.before (closing.before last)))))).text =
      stringUnits "-----" ++ (stringUnits label ++ (before.text ++
        (stringUnits "PRIVATE KEY" ++ (after.text ++ stringUnits "-----")))) := by
    show opening.text ++ (kind.text ++ (before.text ++ (key.text ++ (after.text ++
      (closing.text ++ last.text))))) = _
    rw [run_lit hopening, run_lit hkind, run_lit hkey, run_lit hclosing, hlastText,
      List.append_nil]
  rw [htext]
  have hfive : (stringUnits "-----").count dash = 5 := by decide
  have hkey' : (stringUnits "PRIVATE KEY").count dash = 0 := by decide
  constructor
  · simp only [List.count_append, hfive, hkey', hlabel, count_dash_many hbefore,
      count_dash_many hafter]
  · rfl
  · simp only [← List.append_assoc]
    rw [List.getLast?_append]
    rfl

theorem armored_begin {m : Match Nat}
    (h : m ∈ PEM_PRIVATE_KEY_BEGIN.run read rest) : Armored m.text :=
  armored_of_run (by decide) h

theorem armored_end {m : Match Nat} (h : m ∈ PEM_PRIVATE_KEY_END.run read rest) : Armored m.text :=
  armored_of_run (by decide) h

/-- No armored text goes on from another. -/
theorem Armored.eq_of_starts {text more : List Nat} (h : Armored text) (h' : Armored more)
    (hstarts : text <+: more) : text = more := by
  rcases hstarts with ⟨tail, rfl⟩
  have hcount := h'.dashes
  rw [List.count_append, h.dashes] at hcount
  have hnone : tail.count dash = 0 := by omega
  cases htail : tail.getLast? with
  | none => rw [List.getLast?_eq_none_iff.mp htail, List.append_nil]
  | some u =>
      have hlast := h'.last
      rw [List.getLast?_append, htail, Option.some_or] at hlast
      cases hlast
      exact absurd (List.mem_of_getLast? htail) (List.count_eq_zero.mp hnone)

/-- An armored text that begins inside another one ends after it. -/
theorem Armored.end_le {text other front rest after : List Nat} (h : Armored text)
    (h' : Armored other) (hfront : front ≠ []) (hsplit : text ++ rest = front ++ (other ++ after)) :
    after.length ≤ rest.length := by
  by_contra hlt
  rw [Nat.not_le] at hlt
  rw [← List.append_assoc] at hsplit
  have hstarts : front ++ other <+: text := by
    have hleft : front ++ other <+: text ++ rest := ⟨after, hsplit.symm⟩
    apply List.prefix_of_prefix_length_le hleft (List.prefix_append text rest)
    have hlength := congrArg List.length hsplit
    simp only [List.length_append] at hlength ⊢
    omega
  rcases hstarts with ⟨tail, rfl⟩
  have hcount := h.dashes
  rw [List.append_assoc, List.count_append, List.count_append, h'.dashes] at hcount
  have hnone : front.count dash = 0 := by omega
  cases front with
  | nil => exact hfront rfl
  | cons u front =>
      have hfirst := h.first
      rw [List.append_assoc, List.cons_append, List.head?_cons] at hfirst
      cases hfirst
      exact absurd List.mem_cons_self (List.count_eq_zero.mp hnone)

theorem consumes_begin : Consumes PEM_PRIVATE_KEY_BEGIN :=
  consumes_of_eats rfl

/-!
## The two scans
-/

/-- `redactPrivateKeyBlocks` from the end of the block before: what is still to be
copied, with the blocks in it dropped. -/
def redactFrom (read rest : List Nat) : List Nat :=
  match _hbegin : PEM_PRIVATE_KEY_BEGIN.find read rest with
  | none => rest
  | some (skipped, header) =>
      match _hend : PEM_PRIVATE_KEY_END.find
          (header.text.reverse ++ (skipped.reverse ++ read)) header.rest with
      -- no later header can have a footer either
      | none => rest
      | some (body, footer) =>
          skipped ++ (REPLACEMENT ++ redactFrom
            (footer.text.reverse ++ (body.reverse ++
              (header.text.reverse ++ (skipped.reverse ++ read)))) footer.rest)
termination_by rest.length
decreasing_by
  have hheader := leftmost_of_find _hbegin
  have hfooter := leftmost_of_find _hend
  have hnonempty := List.length_pos_iff.mpr (consumes_begin _ _ _ (matchHere_mem hheader.here))
  rw [hheader.text, hfooter.text]
  simp only [List.length_append]
  omega

def redactPrivateKeyBlocks (value : List Nat) : List Nat :=
  redactFrom [] value

/-!
## One pattern
-/

/-- A header matches in one way only. -/
theorem begin_only {x y : Match Nat} (hx : x ∈ PEM_PRIVATE_KEY_BEGIN.run read rest)
    (hy : y ∈ PEM_PRIVATE_KEY_BEGIN.run read rest) : x = y := by
  have hsplit := (run_text hx).symm.trans (run_text hy)
  have htext : x.text = y.text := by
    rcases List.prefix_or_prefix_of_prefix ⟨x.rest, rfl⟩ ⟨y.rest, hsplit.symm⟩ with h | h
    · exact (armored_begin hx).eq_of_starts (armored_begin hy) h
    · exact ((armored_begin hy).eq_of_starts (armored_begin hx) h).symm
  have hfree : PEM_PRIVATE_KEY_BEGIN.groupFree = true := rfl
  have hgroups : x.groups = y.groups := (run_groups hfree hx).trans (run_groups hfree hy).symm
  rw [htext] at hsplit
  have hrest := List.append_cancel_left hsplit
  cases x
  cases y
  simp only at htext hrest hgroups
  rw [htext, hrest, hgroups]

/-- The block that goes on from a header, with what stands between. -/
def blockMatch (header : Match Nat) (found : List Nat × Match Nat) : Match Nat :=
  header.before ⟨found.1 ++ found.2.text, found.2.rest, found.2.groups⟩

theorem block_here {header : Match Nat}
    (h : PEM_PRIVATE_KEY_BEGIN.matchHere read rest = some header) :
    PEM_PRIVATE_KEY_BLOCK.matchHere read rest =
      (PEM_PRIVATE_KEY_END.find (header.text.reverse ++ read) header.rest).map
        (blockMatch header) := by
  rw [PEM_PRIVATE_KEY_BLOCK, matchHere_seq h fun y hy => begin_only hy (matchHere_mem h),
    matchHere_few_seq, Option.map_map]
  rfl

/-- Where the first header has no footer after it, no later header has one. -/
theorem no_block {read rest skipped : List Nat} {header : Match Nat}
    (hheader : Leftmost PEM_PRIVATE_KEY_BEGIN read rest skipped header)
    (hend : PEM_PRIVATE_KEY_END.find (header.text.reverse ++ (skipped.reverse ++ read))
      header.rest = none) : PEM_PRIVATE_KEY_BLOCK.find read rest = none := by
  rw [find_eq_none_iff]
  intro front back hsplit
  cases hhere : PEM_PRIVATE_KEY_BEGIN.matchHere (front.reverse ++ read) back with
  | none => exact matchHere_seq_none hhere
  | some later =>
      have hback := run_text (matchHere_mem hhere)
      rw [block_here hhere, Option.map_eq_none_iff, find_eq_none_iff]
      -- the later header starts at or after the first one, and so ends at or after it
      have hle : skipped.length ≤ front.length := by
        by_contra hlt
        have hnone := hheader.first front back hsplit (Nat.lt_of_not_le hlt)
        rw [hhere] at hnone
        cases hnone
      have hskipped : skipped <+: front :=
        List.prefix_of_prefix_length_le ⟨_, hheader.text.symm⟩ ⟨_, hsplit.symm⟩ hle
      rcases hskipped with ⟨gap, rfl⟩
      have hgap : header.text ++ header.rest = gap ++ (later.text ++ later.rest) := by
        have htext := hheader.text.symm.trans hsplit
        rw [List.append_assoc, hback] at htext
        exact List.append_cancel_left htext
      have hlength : later.rest.length ≤ header.rest.length := by
        cases gap with
        | nil =>
            have hsame := hheader.here
            rw [hgap, List.nil_append, ← hback] at hsame
            rw [List.append_nil, hsame] at hhere
            cases hhere
            exact Nat.le_refl _
        | cons u gap =>
            exact (armored_begin (matchHere_mem hheader.here)).end_le
              (armored_begin (matchHere_mem hhere)) (List.cons_ne_nil u gap) hgap
      have hsuffix : later.rest <:+ header.rest := by
        apply List.suffix_of_suffix_length_le _ ⟨header.text, hgap⟩ hlength
        exact ⟨gap ++ later.text, List.append_assoc _ _ _⟩
      rcases hsuffix with ⟨between, hbetween⟩
      intro front' back' hsplit'
      have hnone := find_eq_none_iff.mp hend (between ++ front') back'
        (by rw [← hbetween, hsplit', List.append_assoc])
      have hread : skipped ++ (header.text ++ (between ++ front')) =
          skipped ++ gap ++ (later.text ++ front') := by
        rw [List.append_assoc]
        congr 1
        have hwhole := hgap
        rw [← hbetween, hsplit'] at hwhole
        simp only [← List.append_assoc] at hwhole ⊢
        exact List.append_cancel_right hwhole
      have hreads : (between ++ front').reverse ++
          (header.text.reverse ++ (skipped.reverse ++ read)) =
          front'.reverse ++ (later.text.reverse ++ ((skipped ++ gap).reverse ++ read)) := by
        have := congrArg (fun us => us.reverse ++ read) hread
        simpa using this
      rwa [hreads] at hnone

/-- The pattern finds the first header with the first footer after it. -/
theorem find_block (read rest : List Nat) :
    PEM_PRIVATE_KEY_BLOCK.find read rest =
      (PEM_PRIVATE_KEY_BEGIN.find read rest).bind fun begun =>
        (PEM_PRIVATE_KEY_END.find (begun.2.text.reverse ++ (begun.1.reverse ++ read))
          begun.2.rest).map fun ended => (begun.1, blockMatch begun.2 ended) := by
  cases hbegin : PEM_PRIVATE_KEY_BEGIN.find read rest with
  | none =>
      rw [Option.bind_none, find_eq_none_iff]
      intro front back hsplit
      exact matchHere_seq_none (find_eq_none_iff.mp hbegin front back hsplit)
  | some begun =>
      rcases begun with ⟨skipped, header⟩
      have hheader := leftmost_of_find hbegin
      rw [Option.bind_some]
      cases hend : PEM_PRIVATE_KEY_END.find (header.text.reverse ++ (skipped.reverse ++ read))
          header.rest with
      | none => exact no_block hheader hend
      | some ended =>
          rw [Option.map_some]
          apply find_of_leftmost
          have hblock := block_here hheader.here
          rw [hend, Option.map_some] at hblock
          have htext := run_text (matchHere_mem hblock)
          constructor
          · rw [← htext]
            exact hheader.text
          · rw [← htext]
            exact hblock
          · intro front back hsplit hlt
            exact matchHere_seq_none (hheader.first front back hsplit hlt)

theorem consumes_block : Consumes PEM_PRIVATE_KEY_BLOCK :=
  consumes_of_eats rfl

theorem redactFrom_eq (read rest : List Nat) :
    redactFrom read rest =
      PEM_PRIVATE_KEY_BLOCK.replaceFrom (fun _ => REPLACEMENT) 0 read rest := by
  induction read, rest using redactFrom.induct with
  | case1 read rest hbegin =>
      have hnone : PEM_PRIVATE_KEY_BLOCK.find read rest = none := by
        rw [find_block, hbegin]
        rfl
      rw [replaceFrom_none consumes_block hnone, redactFrom]
      split
      · rfl
      · next h =>
          rw [hbegin] at h
          cases h
  | case2 read rest skipped header hbegin hend =>
      have hnone : PEM_PRIVATE_KEY_BLOCK.find read rest = none := by
        rw [find_block, hbegin, Option.bind_some, hend]
        rfl
      rw [replaceFrom_none consumes_block hnone, redactFrom]
      split
      · rfl
      · next h =>
          rw [hbegin] at h
          cases h
          split
          · rfl
          · next h =>
              rw [hend] at h
              cases h
  | case3 read rest skipped header hbegin body footer hend ih =>
      have hsome : PEM_PRIVATE_KEY_BLOCK.find read rest =
          some (skipped, blockMatch header (body, footer)) := by
        rw [find_block, hbegin, Option.bind_some, hend]
        rfl
      rw [replaceFrom_some consumes_block hsome, redactFrom]
      split
      · next h =>
          rw [hbegin] at h
          cases h
      · next h =>
          rw [hbegin] at h
          cases h
          split
          · next h =>
              rw [hend] at h
              cases h
          · next h =>
              rw [hend] at h
              cases h
              rw [ih]
              simp [blockMatch, Match.before]

/-- Scanning for headers and footers in turn drops what replacing the matches of
one pattern drops. -/
theorem redactPrivateKeyBlocks_eq (value : List Nat) :
    redactPrivateKeyBlocks value =
      PEM_PRIVATE_KEY_BLOCK.replaceAll (fun _ => REPLACEMENT) value :=
  redactFrom_eq [] value

end Redaction
end CatFactory
