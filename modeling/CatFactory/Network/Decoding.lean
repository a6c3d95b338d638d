import CatFactory.Network.Spelling
import Mathlib.Tactic.IntervalCases

/-!
# The decoders read the grammar

Every form of the grammar is decoded to the address it denotes: quads and
integers by the IPv4 decoders, and all spellings of an IPv6 address by
`decodeIpv6`.
-/

namespace CatFactory
namespace Network

open Foundation

variable {chunk : List Char} {run : GroupRun} {cs : List Char}

/-!
## Joined texts
-/

section Joined

variable {α : Type} {x : α} {alphabet : List α}

theorem intercalate_subset (hx : x ∈ alphabet) {chunks : List (List α)}
    (h : forall chunk, chunk ∈ chunks -> chunk ⊆ alphabet) :
    [x].intercalate chunks ⊆ alphabet := by
  induction chunks with
  | nil => simp
  | cons chunk rest ih =>
      have hchunk := h chunk List.mem_cons_self
      have hrest := ih (fun c hc => h c (List.mem_cons_of_mem _ hc))
      cases rest with
      | nil => simpa using hchunk
      | cons next rest =>
          rw [List.intercalate_cons_cons]
          simp [hchunk, hx, hrest]

/-- A joined text ends as its last chunk does. -/
theorem intercalate_concat (chunks : List (List α)) (last : List α) :
    exists front, [x].intercalate (chunks ++ [last]) = front ++ last := by
  induction chunks with
  | nil => exact ⟨[], by simp⟩
  | cons chunk rest ih =>
      rcases ih with ⟨front, hfront⟩
      rw [List.cons_append, List.intercalate_cons_of_ne_nil (by simp), hfront]
      exact ⟨chunk ++ [x] ++ front, by simp⟩

end Joined

/-!
## Digits and numerals
-/

theorem idxOf_lt_sixteen {c : Char} (h : c ∈ hexDigits) : hexDigits.idxOf c < 16 :=
  List.idxOf_lt_length_iff.mpr h

theorem numeral_lt {base : Nat} (hbase : 1 < base)
    (h : forall c, c ∈ cs -> hexDigits.idxOf c < base) :
    numeral base cs < base ^ cs.length := by
  have hlt : numeral base cs < base ^ (cs.map hexDigits.idxOf).reverse.length := by
    apply Nat.ofDigits_lt_base_pow_length hbase
    intro d hd
    rcases List.mem_map.mp (List.mem_reverse.mp hd) with ⟨c, hc, heq⟩
    exact heq ▸ h c hc
  simpa using hlt

theorem isDigits_of_subset (hne : cs ≠ []) (h : cs ⊆ decimalDigits) : isDigits cs = true := by
  simp only [isDigits, Bool.and_eq_true, Bool.not_eq_true', List.isEmpty_eq_false_iff,
    List.all_eq_true, List.contains_iff_mem]
  exact ⟨hne, fun c hc => h hc⟩

namespace Octet

theorem value_le (octet : Octet) : octet.value ≤ 255 :=
  octet.small

theorem isShortDecimal_digits (octet : Octet) : isShortDecimal octet.digits = true := by
  simp [isShortDecimal, isDigits_of_subset octet.nonempty octet.decimal, octet.short]

theorem dot_not_mem (octet : Octet) : '.' ∉ octet.digits := by
  intro h
  exact absurd (octet.decimal h) (by decide)

end Octet

namespace HexGroup

theorem value_lt (group : HexGroup) : group.value < 65536 := by
  have hlt : group.value < 16 ^ group.digits.length :=
    numeral_lt (by decide) (fun c hc => idxOf_lt_sixteen (group.hexadecimal hc))
  have hle : 16 ^ group.digits.length ≤ 16 ^ 4 :=
    Nat.pow_le_pow_right (by decide) group.short
  omega

theorem isHexChunk_digits (group : HexGroup) : isHexChunk group.digits = true := by
  simp only [isHexChunk, Bool.and_eq_true, Bool.not_eq_true', List.isEmpty_eq_false_iff,
    decide_eq_true_eq, List.all_eq_true, List.contains_iff_mem]
  exact ⟨⟨group.nonempty, group.short⟩, fun c hc => group.hexadecimal hc⟩

theorem colon_not_mem (group : HexGroup) : ':' ∉ group.digits := by
  intro h
  exact absurd (group.hexadecimal h) (by decide)

theorem dot_not_mem (group : HexGroup) : '.' ∉ group.digits := by
  intro h
  exact absurd (group.hexadecimal h) (by decide)

end HexGroup

/-!
## Quads and integers
-/

namespace Quad

theorem splitOn_text (quad : Quad) : quad.text.splitOn '.' = quad.chunks := by
  apply List.splitOn_intercalate
  · intro chunk hchunk
    simp only [chunks, List.mem_cons, List.not_mem_nil, or_false] at hchunk
    rcases hchunk with rfl | rfl | rfl | rfl <;> exact Octet.dot_not_mem _
  · simp [chunks]

theorem matchDottedQuad_text (quad : Quad) :
    matchDottedQuad quad.text =
      some (quad.a.digits, quad.b.digits, quad.c.digits, quad.d.digits) := by
  unfold matchDottedQuad
  rw [splitOn_text]
  simp [chunks, Octet.isShortDecimal_digits]

theorem octetsOf_digits (quad : Quad) :
    octetsOf (quad.a.digits, quad.b.digits, quad.c.digits, quad.d.digits) =
      some quad.octets := by
  have ha := quad.a.small
  have hb := quad.b.small
  have hc := quad.c.small
  have hd := quad.d.small
  simp [octetsOf, octets, Octet.value, ha, hb, hc, hd]

theorem decimalV4_text (quad : Quad) : decimalV4 quad.text = some quad.octets := by
  unfold decimalV4
  rw [matchDottedQuad_text]
  exact octetsOf_digits quad

/-- The characters of a quad. -/
theorem text_subset (quad : Quad) : quad.text ⊆ '.' :: decimalDigits := by
  apply intercalate_subset List.mem_cons_self
  intro chunk hchunk
  simp only [chunks, List.mem_cons, List.not_mem_nil, or_false] at hchunk
  rcases hchunk with rfl | rfl | rfl | rfl <;>
    exact fun c hc => List.mem_cons_of_mem _ (Octet.decimal _ hc)

theorem dot_mem_text (quad : Quad) : '.' ∈ quad.text := by
  simp [text, chunks, List.intercalate_cons_cons]

/-- A quad ends in a digit. -/
theorem exists_text_eq (quad : Quad) :
    exists front, quad.text = front ++ quad.d.digits :=
  intercalate_concat [quad.a.digits, quad.b.digits, quad.c.digits] quad.d.digits

end Quad

/-!
## Bytes of a number
-/

theorem and_byte (n : Nat) : n &&& 0xff = n % 256 :=
  Nat.and_two_pow_sub_one_eq_mod n 8

theorem shiftLeft_byte_or {hi lo : Nat} (h : lo < 256) : hi <<< 8 ||| lo = hi * 256 + lo := by
  have hadd : hi <<< 8 + lo = hi <<< 8 ||| lo := Nat.shiftLeft_add_eq_or_of_lt h hi
  rw [← hadd, Nat.shiftLeft_eq]

theorem BareInteger.octets_eq (n : BareInteger) :
    n.octets =
      ((numeral 10 n.digits >>> 24) &&& 0xff, (numeral 10 n.digits >>> 16) &&& 0xff,
        (numeral 10 n.digits >>> 8) &&& 0xff, numeral 10 n.digits &&& 0xff) := by
  have hsmall := n.small
  have htop : numeral 10 n.digits / 2 ^ 24 % 256 = numeral 10 n.digits / 2 ^ 24 := by
    omega
  simp only [octets, and_byte, Nat.shiftRight_eq_div_pow, htop]

theorem mapped_octets_eq (hi lo : Nat) (h : hi < 65536) (h' : lo < 65536) :
    ((hi >>> 8) &&& 0xff, hi &&& 0xff, (lo >>> 8) &&& 0xff, lo &&& 0xff) =
      Address.octetsOfGroups hi lo := by
  have hhi : hi / 2 ^ 8 % 256 = hi / 256 := by omega
  have hlo : lo / 2 ^ 8 % 256 = lo / 256 := by omega
  simp only [Address.octetsOfGroups, and_byte, Nat.shiftRight_eq_div_pow, hhi, hlo]

theorem Quad.octetsOfGroups_groups (quad : Quad) :
    Address.octetsOfGroups (quad.a.value * 256 + quad.b.value)
      (quad.c.value * 256 + quad.d.value) = quad.octets := by
  have hb := quad.b.value_le
  have hd := quad.d.value_le
  simp only [Address.octetsOfGroups, Quad.octets, Prod.mk.injEq]
  omega

/-!
## Runs of groups
-/

namespace GroupRun

theorem chunk_cases (h : chunk ∈ run.chunks) :
    (exists group, group ∈ run.groups ∧ chunk = group.digits) ∨
      exists quad, run.quad = some quad ∧ chunk = quad.text := by
  rcases List.mem_append.mp h with hgroup | hquad
  · rcases List.mem_map.mp hgroup with ⟨group, hmem, heq⟩
    exact Or.inl ⟨group, hmem, heq.symm⟩
  · rcases List.mem_map.mp hquad with ⟨quad, hmem, heq⟩
    exact Or.inr ⟨quad, Option.mem_toList.mp hmem, heq.symm⟩

theorem chunk_ne_nil (h : chunk ∈ run.chunks) :
    chunk ≠ [] := by
  rcases chunk_cases h with ⟨group, _, rfl⟩ | ⟨quad, _, rfl⟩
  · exact group.nonempty
  · exact List.ne_nil_of_mem quad.dot_mem_text

theorem colon_not_mem_chunk (h : chunk ∈ run.chunks) : ':' ∉ chunk := by
  rcases chunk_cases h with ⟨group, _, rfl⟩ | ⟨quad, _, rfl⟩
  · exact group.colon_not_mem
  · intro hmem
    exact absurd (quad.text_subset hmem) (by decide)

theorem text_eq_nil_iff : run.text = [] <-> run.chunks = [] := by
  constructor
  · intro h
    cases hchunks : run.chunks with
    | nil => rfl
    | cons chunk rest =>
        have hne : chunk ≠ [] := chunk_ne_nil (hchunks ▸ List.mem_cons_self)
        rw [text, hchunks] at h
        cases rest with
        | nil => exact absurd (by simpa using h) hne
        | cons next rest => simp [List.intercalate_cons_cons, hne] at h
  · intro h
    simp [text, h]

theorem splitOn_text (h : run.chunks ≠ []) :
    run.text.splitOn ':' = run.chunks := by
  apply List.splitOn_intercalate
  · intro chunk hchunk
    exact colon_not_mem_chunk hchunk
  · exact h

theorem expandChunks_quad (quad : Quad) : expandChunks [quad.text] = some quad.groups := by
  have hb : quad.b.value < 256 := Nat.lt_succ_of_le quad.b.value_le
  have hd : quad.d.value < 256 := Nat.lt_succ_of_le quad.d.value_le
  simp only [expandChunks, List.contains_iff_mem, quad.dot_mem_text, if_true,
    quad.decimalV4_text, Quad.octets, Option.map_some, shiftLeft_byte_or hb,
    shiftLeft_byte_or hd, Quad.groups]

theorem expandChunks_group (group : HexGroup) {rest : List (List Char)} {values : List Nat}
    (h : expandChunks rest = some values) :
    expandChunks (group.digits :: rest) = some (group.value :: values) := by
  cases rest with
  | nil =>
      simp only [expandChunks, Option.some.injEq] at h
      subst h
      simp [expandChunks, group.dot_not_mem, group.isHexChunk_digits, HexGroup.value]
  | cons next rest =>
      simp [expandChunks, group.isHexChunk_digits, h, HexGroup.value]

theorem expandChunks_chunks (groups : List HexGroup) (quad : Option Quad) :
    expandChunks (GroupRun.mk groups quad).chunks =
      some (GroupRun.mk groups quad).values := by
  induction groups with
  | nil =>
      cases quad with
      | none => rfl
      | some quad => simpa [chunks, values] using expandChunks_quad quad
  | cons group groups ih => exact expandChunks_group group ih

theorem expandIpv6Groups_text (run : GroupRun) :
    expandIpv6Groups run.text = some run.values := by
  have hexpand : expandChunks run.chunks = some run.values :=
    expandChunks_chunks run.groups run.quad
  unfold expandIpv6Groups
  split
  · rename_i hnil
    rw [text_eq_nil_iff.mp hnil] at hexpand
    exact hexpand
  · rename_i hne
    rw [splitOn_text (fun h => hne (text_eq_nil_iff.mpr h))]
    exact hexpand

end GroupRun

/-!
## The split at `::`
-/

theorem splitDoubleColon_cons {c : Char} (h : c ≠ ':') (rest : List Char) :
    splitDoubleColon (c :: rest) = (splitDoubleColon rest).modifyHead (c :: ·) := by
  cases rest with
  | nil => simp [splitDoubleColon]
  | cons d rest => simp [splitDoubleColon, h]

theorem splitDoubleColon_colon {d : Char} (h : d ≠ ':') (rest : List Char) :
    splitDoubleColon (':' :: d :: rest) =
      (splitDoubleColon (d :: rest)).modifyHead (':' :: ·) := by
  rw [splitDoubleColon]
  rintro rest' _ heq
  exact h (List.cons.inj heq).1

theorem splitDoubleColon_append (h : ':' ∉ chunk) (rest : List Char) :
    splitDoubleColon (chunk ++ rest) = (splitDoubleColon rest).modifyHead (chunk ++ ·) := by
  induction chunk with
  | nil => cases hs : splitDoubleColon rest <;> simp [hs]
  | cons c chunk ih =>
      have hc : c ≠ ':' := fun heq => h (heq ▸ List.mem_cons_self)
      have hchunk := ih (fun hmem => h (List.mem_cons_of_mem _ hmem))
      rw [List.cons_append, splitDoubleColon_cons hc, hchunk, List.modifyHead_modifyHead]
      rfl

/-- Chunks joined by single colons hold no `::`. -/
theorem splitDoubleColon_intercalate {chunks : List (List Char)}
    (hne : forall chunk, chunk ∈ chunks -> chunk ≠ [])
    (hcolon : forall chunk, chunk ∈ chunks -> ':' ∉ chunk) (rest : List Char) :
    splitDoubleColon ([':'].intercalate chunks ++ rest) =
      (splitDoubleColon rest).modifyHead ([':'].intercalate chunks ++ ·) := by
  induction chunks with
  | nil => cases hs : splitDoubleColon rest <;> simp [hs]
  | cons chunk chunks ih =>
      have hchunk := hcolon chunk List.mem_cons_self
      have hjoined := ih (fun c hc => hne c (List.mem_cons_of_mem _ hc))
        (fun c hc => hcolon c (List.mem_cons_of_mem _ hc))
      cases chunks with
      | nil => simpa using splitDoubleColon_append hchunk rest
      | cons next chunks =>
          -- the colon is followed by the next chunk's first character
          have hnext : exists d tail,
              [':'].intercalate (next :: chunks) ++ rest = d :: tail ∧ d ≠ ':' := by
            have hmem : next ∈ chunk :: next :: chunks := by simp
            cases hdigits : next with
            | nil => exact absurd hdigits (hne next hmem)
            | cons d digits =>
                have hd : d ≠ ':' := fun heq =>
                  hcolon next hmem (hdigits ▸ heq ▸ List.mem_cons_self)
                cases chunks with
                | nil => exact ⟨d, digits ++ rest, by simp, hd⟩
                | cons _ _ =>
                    exact ⟨d, _, by rw [List.intercalate_cons_cons]; rfl, hd⟩
          rcases hnext with ⟨d, tail, heq, hd⟩
          rw [List.intercalate_cons_cons]
          calc
            splitDoubleColon (chunk ++ [':'] ++ [':'].intercalate (next :: chunks) ++ rest)
                = splitDoubleColon (chunk ++ ':' :: d :: tail) := by
                  rw [← heq]
                  simp
            _ = _ := by
                  rw [splitDoubleColon_append hchunk, splitDoubleColon_colon hd, ← heq,
                    hjoined, List.modifyHead_modifyHead, List.modifyHead_modifyHead]
                  congr 1
                  funext cs
                  simp

namespace Ipv6Form

theorem splitDoubleColon_text (form : Ipv6Form) :
    splitDoubleColon form.text =
      match form with
      | full run _ => [run.text]
      | compressed head tail _ => [(GroupRun.mk head none).text, tail.text] := by
  have hrun : forall run : GroupRun, forall rest, splitDoubleColon (run.text ++ rest) =
      (splitDoubleColon rest).modifyHead (run.text ++ ·) := fun run rest =>
    splitDoubleColon_intercalate (fun _ h => GroupRun.chunk_ne_nil h)
      (fun _ h => GroupRun.colon_not_mem_chunk h) rest
  cases form with
  | full run size => simpa [text, splitDoubleColon] using hrun run []
  | compressed head tail size =>
      have htail : splitDoubleColon tail.text = [tail.text] := by
        simpa [splitDoubleColon] using hrun tail []
      simp [text, hrun, splitDoubleColon, htail]

end Ipv6Form

/-!
## The characters of a form
-/

def addressChars : List Char :=
  '.' :: ':' :: hexDigits

theorem decimalDigits_subset_addressChars : decimalDigits ⊆ addressChars := by
  decide

namespace GroupRun

theorem text_subset (run : GroupRun) : run.text ⊆ addressChars := by
  apply intercalate_subset (by decide)
  intro chunk hchunk
  rcases chunk_cases hchunk with ⟨group, _, rfl⟩ | ⟨quad, _, rfl⟩
  · exact fun c hc =>
      List.mem_cons_of_mem _ (List.mem_cons_of_mem _ (group.hexadecimal hc))
  · intro c hc
    rcases List.mem_cons.mp (quad.text_subset hc) with rfl | hdigit
    · decide
    · exact decimalDigits_subset_addressChars hdigit

theorem dot_not_mem_text (h : run.quad = none) : '.' ∉ run.text := by
  have hsub : run.text ⊆ ':' :: hexDigits := by
    apply intercalate_subset List.mem_cons_self
    intro chunk hchunk
    rcases chunk_cases hchunk with ⟨group, _, rfl⟩ | ⟨quad, hquad, _⟩
    · exact fun c hc => List.mem_cons_of_mem _ (group.hexadecimal hc)
    · rw [h] at hquad
      cases hquad
  intro hmem
  exact absurd (hsub hmem) (by decide)

/-- A run with a quad ends as the quad does. -/
theorem exists_text_eq {quad : Quad} (h : run.quad = some quad) :
    exists front, run.text = front ++ quad.d.digits := by
  rcases intercalate_concat (x := ':') (run.groups.map HexGroup.digits) quad.text
    with ⟨front, hfront⟩
  rcases quad.exists_text_eq with ⟨quadFront, hquad⟩
  refine ⟨front ++ quadFront, ?_⟩
  calc
    run.text = [':'].intercalate (run.groups.map HexGroup.digits ++ [quad.text]) := by
      simp [text, chunks, h]
    _ = front ++ quadFront ++ quad.d.digits := by
      rw [hfront, hquad, List.append_assoc]

end GroupRun

namespace Ipv6Form

theorem colon_mem_text (form : Ipv6Form) : ':' ∈ form.text := by
  cases form with
  | full run size =>
      -- eight groups take at least two chunks
      cases run with
      | mk groups quad =>
          match groups, quad, size with
          | [], none, size => simp [GroupRun.values] at size
          | [], some quad, size => simp [GroupRun.values, Quad.groups] at size
          | [_], none, size => simp [GroupRun.values] at size
          | [_], some quad, _ => simp [text, GroupRun.text, GroupRun.chunks]
          | _ :: _ :: _, _, _ =>
              simp [text, GroupRun.text, GroupRun.chunks, List.intercalate_cons_cons]
  | compressed head tail size => simp [text]

theorem text_subset (form : Ipv6Form) : form.text ⊆ addressChars := by
  cases form with
  | full run size => exact run.text_subset
  | compressed head tail size =>
      have hcolon : ':' ∈ addressChars := by decide
      simp only [text, List.append_subset, List.cons_subset]
      exact ⟨GroupRun.text_subset _, hcolon, hcolon, tail.text_subset⟩

end Ipv6Form

theorem decimal_getLast_ne {front digits : List Char} (hne : digits ≠ [])
    (h : digits ⊆ decimalDigits) : (front ++ digits).getLast? ≠ some '.' := by
  intro hlast
  rw [List.getLast?_append_of_ne_nil _ hne] at hlast
  have hmem : '.' ∈ digits := List.mem_of_getLast? hlast
  exact absurd (h hmem) (by decide)

namespace Form

theorem text_subset (form : Form) : form.text ⊆ addressChars := by
  cases form with
  | dotted quad =>
      intro c hc
      rcases List.mem_cons.mp (quad.text_subset hc) with rfl | hdigit
      · decide
      · exact decimalDigits_subset_addressChars hdigit
  | integer n => exact fun c hc => decimalDigits_subset_addressChars (n.decimal hc)
  | ipv6 form => exact form.text_subset

theorem text_ne_nil (form : Form) : form.text ≠ [] := by
  cases form with
  | dotted quad => exact List.ne_nil_of_mem quad.dot_mem_text
  | integer n => exact n.nonempty
  | ipv6 form => exact List.ne_nil_of_mem form.colon_mem_text

theorem getLast_text_ne (form : Form) : form.text.getLast? ≠ some '.' := by
  have hrun : forall (front : List Char) (run : GroupRun),
      run.text = [] -> front.getLast? ≠ some '.' -> (front ++ run.text).getLast? ≠ some '.' := by
    intro front run hnil hfront
    simpa [hnil] using hfront
  have hnonempty : forall (front : List Char) (run : GroupRun), run.text ≠ [] ->
      (front ++ run.text).getLast? ≠ some '.' := by
    intro front run hne
    cases hquad : run.quad with
    | none =>
        intro hlast
        rw [List.getLast?_append_of_ne_nil _ hne] at hlast
        exact GroupRun.dot_not_mem_text hquad (List.mem_of_getLast? hlast)
    | some quad =>
        rcases GroupRun.exists_text_eq hquad with ⟨rest, heq⟩
        rw [heq, ← List.append_assoc]
        exact decimal_getLast_ne quad.d.nonempty quad.d.decimal
  cases form with
  | dotted quad =>
      rcases quad.exists_text_eq with ⟨front, heq⟩
      show quad.text.getLast? ≠ some '.'
      rw [heq]
      exact decimal_getLast_ne quad.d.nonempty quad.d.decimal
  | integer n => exact @decimal_getLast_ne [] _ n.nonempty n.decimal
  | ipv6 form =>
      cases form with
      | full run size =>
          have hne : run.text ≠ [] :=
            List.ne_nil_of_mem (Ipv6Form.colon_mem_text (.full run size))
          exact hnonempty [] run hne
      | compressed head tail size =>
          by_cases hnil : tail.text = []
          · simp [text, Ipv6Form.text, hnil, List.getLast?_append]
          · have heq : (Form.ipv6 (.compressed head tail size)).text =
                ((GroupRun.mk head none).text ++ [':', ':']) ++ tail.text := by
              simp [text, Ipv6Form.text]
            rw [heq]
            exact hnonempty _ tail hnil

end Form

/-!
## Normalisation
-/

theorem stripBrackets_eq_self (h : cs ⊆ addressChars) :
    stripBrackets cs = cs := by
  have hopen : cs.head? ≠ some '[' := fun heq =>
    absurd (h (List.mem_of_head? heq)) (by decide)
  have hclose : cs.getLast? ≠ some ']' := fun heq =>
    absurd (h (List.mem_of_getLast? heq)) (by decide)
  simp [stripBrackets, hopen, hclose]

theorem stripBrackets_bracketed (cs : List Char) :
    stripBrackets ('[' :: (cs ++ [']'])) = cs := by
  simp [stripBrackets]

theorem toLowerChars_eq_self (h : cs ⊆ addressChars) :
    toLowerChars cs = cs := by
  have hall : addressChars.all (fun c => lowerChar c = [c]) = true := by decide
  have hlower : forall c, c ∈ cs -> lowerChar c = [c] := fun c hc =>
    of_decide_eq_true (List.all_eq_true.mp hall c (h hc))
  unfold toLowerChars
  rw [List.flatMap_congr hlower]
  simp

theorem hostOf_eq_self (h : cs ⊆ addressChars) : hostOf cs = cs := by
  rw [hostOf, toLowerChars_eq_self h, stripBrackets_eq_self h]

def upperLetters : List Char :=
  "ABCDEFGHIJKLMNOPQRSTUVWXYZ".toList

/-- Lower-casing moves the ASCII capitals only. -/
theorem toLower_cases (c : Char) : c.toLower = c ∨ c ∈ upperLetters := by
  by_cases hupper : 65 ≤ c.toNat ∧ c.toNat ≤ 90
  · right
    have hc : Char.ofNat c.toNat = c := Char.ofNat_toNat c
    rcases hupper with ⟨hlow, hhigh⟩
    rw [← hc]
    generalize c.toNat = n at hlow hhigh
    interval_cases n <;> decide
  · left
    unfold Char.toLower
    rw [dif_neg]
    intro h
    exact hupper ⟨h.1, h.2⟩

def literalChars : List Char :=
  '[' :: ']' :: addressChars

theorem lowerChar_of_toLower_mem {c : Char} (h : c.toLower ∈ literalChars) :
    lowerChar c = [c.toLower] ∧ isSpace c = false := by
  rcases toLower_cases c with heq | hupper
  · have hall : literalChars.all (fun d => lowerChar d = [d] ∧ isSpace d = false) = true := by
      decide
    rw [heq] at h ⊢
    exact of_decide_eq_true (List.all_eq_true.mp hall c h)
  · have hall : upperLetters.all
        (fun d => lowerChar d = [d.toLower] ∧ isSpace d = false) = true := by
      decide
    exact of_decide_eq_true (List.all_eq_true.mp hall c hupper)

theorem trimChars_eq_self (h : forall c, c ∈ cs -> isSpace c = false) :
    trimChars isSpace cs = cs := by
  have hdrop : forall ds : List Char, (forall c, c ∈ ds -> isSpace c = false) ->
      ds.dropWhile isSpace = ds := by
    intro ds hds
    cases ds with
    | nil => rfl
    | cons d ds => simp [hds d List.mem_cons_self]
  unfold trimChars
  rw [hdrop cs h, hdrop cs.reverse (fun c hc => h c (List.mem_reverse.mp hc)),
    List.reverse_reverse]

namespace Literal

theorem toLower_mem (literal : Literal) {c : Char} (h : c ∈ literal.text) :
    c.toLower ∈ literalChars := by
  have hmem : c.toLower ∈ literal.text.map Char.toLower := List.mem_map_of_mem h
  rw [literal.spells] at hmem
  have hform : forall d, d ∈ literal.form.text -> d ∈ literalChars := fun d hd =>
    List.mem_cons_of_mem _ (List.mem_cons_of_mem _ (literal.form.text_subset hd))
  cases hb : literal.bracketed with
  | false => exact hform _ (by simpa [hb] using hmem)
  | true =>
      simp only [hb, if_true, List.mem_cons, List.mem_append, List.not_mem_nil,
        or_false] at hmem
      rcases hmem with heq | hmem | heq
      · rw [heq]
        decide
      · exact hform _ hmem
      · rw [heq]
        decide

theorem toLowerChars_text (literal : Literal) :
    toLowerChars literal.text = literal.text.map Char.toLower := by
  unfold toLowerChars
  rw [List.flatMap_congr (fun c hc => (lowerChar_of_toLower_mem (literal.toLower_mem hc)).1)]
  exact (List.map_eq_flatMap).symm

theorem stripBrackets_lower (literal : Literal) :
    stripBrackets (toLowerChars literal.text) = literal.form.text := by
  rw [toLowerChars_text, literal.spells]
  cases literal.bracketed with
  | false => exact stripBrackets_eq_self literal.form.text_subset
  | true => exact stripBrackets_bracketed _

/-- The guards see a literal's form, whatever its case and brackets. -/
theorem hostOf_text (literal : Literal) : hostOf literal.text = literal.form.text :=
  literal.stripBrackets_lower

theorem normalizeHostname_text (literal : Literal) :
    normalizeHostname literal.text = literal.form.text := by
  have htrim : trimChars isSpace literal.text = literal.text :=
    trimChars_eq_self
      (fun c hc => (lowerChar_of_toLower_mem (literal.toLower_mem hc)).2)
  rw [normalizeHostname, htrim, stripBrackets_lower, stripTrailingDot,
    if_neg literal.form.getLast_text_ne]

end Literal

/-!
## The decoders
-/

theorem Form.hostOf_text (form : Form) : hostOf form.text = form.text :=
  hostOf_eq_self form.text_subset

namespace Ipv6Form

theorem groups_length (form : Ipv6Form) : form.groups.length = 8 := by
  cases form with
  | full run size => exact size
  | compressed head tail size =>
      simp only [groups, List.length_append, List.length_map, List.length_replicate]
      omega

theorem decodeIpv6_text (form : Ipv6Form) : decodeIpv6 form.text = some form.groups := by
  have hhost : hostOf form.text = form.text := hostOf_eq_self form.text_subset
  have hpercent : '%' ∉ form.text := fun h =>
    absurd (form.text_subset h) (by decide)
  have hliteral : (!form.text.contains ':' || form.text.contains '%') = false := by
    simp [form.colon_mem_text, hpercent]
  simp only [decodeIpv6, hhost, hliteral, splitDoubleColon_text]
  cases form with
  | full run size => simp [GroupRun.expandIpv6Groups_text, groups, size]
  | compressed head tail size =>
      have hfilled : 1 ≤ 8 - head.length - tail.values.length := by omega
      have hhead : (GroupRun.mk head none).values = head.map HexGroup.value := by
        simp [GroupRun.values]
      simp [GroupRun.expandIpv6Groups_text, groups, hhead, hfilled]

example : decodeIpv6 "[::FFFF:127.0.0.1]".toList =
    some [0, 0, 0, 0, 0, 0xffff, 0x7f00, 1] := by decide

end Ipv6Form

theorem startsWith_iff {host : List Char} {start : String} :
    startsWith host start = true <-> exists rest, host = start.toList ++ rest := by
  rw [startsWith, List.isPrefixOf_iff_prefix]
  constructor
  · rintro ⟨rest, heq⟩
    exact ⟨rest, heq.symm⟩
  · rintro ⟨rest, heq⟩
    exact ⟨rest, heq.symm⟩

/-- The text before the first colon is determined. -/
theorem append_colon_inj {front front' back back' : List Char}
    (h : ':' ∉ front) (h' : ':' ∉ front')
    (heq : front ++ ':' :: back = front' ++ ':' :: back') :
    front = front' ∧ back = back' := by
  induction front generalizing front' with
  | nil =>
      cases front' with
      | nil => exact ⟨rfl, (List.cons.inj heq).2⟩
      | cons c front' =>
          have hc : ':' = c := (List.cons.inj heq).1
          exact absurd (hc ▸ List.mem_cons_self) h'
  | cons c front ih =>
      cases front' with
      | nil =>
          have hc : c = ':' := (List.cons.inj heq).1
          exact absurd (hc ▸ List.mem_cons_self) h
      | cons d front' =>
          rcases List.cons.inj heq with ⟨hcd, hrest⟩
          rcases ih (fun hm => h (List.mem_cons_of_mem _ hm))
            (fun hm => h' (List.mem_cons_of_mem _ hm)) hrest with ⟨hfront, hback⟩
          exact ⟨by rw [hcd, hfront], hback⟩

theorem matchDottedQuad_of_dot_not_mem (h : '.' ∉ cs) :
    matchDottedQuad cs = none := by
  have hsplit : cs.splitOn '.' = [cs] := by
    have hjoined := @List.splitOn_intercalate _ [cs] _ _ '.' (by simpa using h) (by simp)
    simpa using hjoined
  unfold matchDottedQuad
  rw [hsplit]

theorem matchDottedQuad_of_colon_mem (h : ':' ∈ cs) :
    matchDottedQuad cs = none := by
  unfold matchDottedQuad
  split
  · rename_i a b c d hsplit
    rw [if_neg]
    intro hshort
    have hjoin : ['.'].intercalate [a, b, c, d] = cs := by
      rw [← hsplit]
      exact List.intercalate_splitOn '.'
    simp only [isShortDecimal, isDigits, Bool.and_eq_true, List.all_eq_true,
      List.contains_iff_mem] at hshort
    have hsub : ['.'].intercalate [a, b, c, d] ⊆ '.' :: decimalDigits := by
      apply intercalate_subset List.mem_cons_self
      intro chunk hchunk
      simp only [List.mem_cons, List.not_mem_nil, or_false] at hchunk
      rcases hchunk with rfl | rfl | rfl | rfl <;> intro c hc <;>
        apply List.mem_cons_of_mem
      · exact hshort.1.1.1.1.2 c hc
      · exact hshort.1.1.2.1.2 c hc
      · exact hshort.1.2.1.2 c hc
      · exact hshort.2.1.2 c hc
    rw [hjoin] at hsub
    exact absurd (hsub h) (by decide)
  · rfl

theorem decimalV4_of_colon_mem (h : ':' ∈ cs) : decimalV4 cs = none := by
  simp [decimalV4, matchDottedQuad_of_colon_mem h]

theorem isDigits_of_colon_mem (h : ':' ∈ cs) : isDigits cs = false := by
  rw [isDigits, Bool.and_eq_false_iff, List.all_eq_false]
  exact Or.inr ⟨':', h, by decide⟩

/-!
## Mapped addresses

`mappedV4` sees the address of the spellings that begin `::ffff:` and of no
other.
-/

namespace Ipv6Form

/-- The address is IPv4-mapped. -/
def IsMapped (form : Ipv6Form) : Prop :=
  form.groups.take 6 = Address.mappedPrefix

instance (form : Ipv6Form) : Decidable form.IsMapped := by
  unfold IsMapped
  infer_instance

/-- The IPv4 address that a mapped address carries. -/
def carried (form : Ipv6Form) : Octets :=
  Address.octetsOfGroups (form.groups.getD 6 0) (form.groups.getD 7 0)

end Ipv6Form

namespace GroupRun

/-- Two groups are spelled as two chunks or as one quad. -/
theorem values_two (h : run.values.length = 2) :
    (exists first second, run = ⟨[first, second], none⟩) ∨
      exists quad, run = ⟨[], some quad⟩ := by
  cases run with
  | mk groups quad =>
      match groups, quad, h with
      | [], some quad, _ => exact Or.inr ⟨quad, rfl⟩
      | [first, second], none, _ => exact Or.inl ⟨first, second, rfl⟩
      | [], none, h => simp [values] at h
      | [_], none, h => simp [values] at h
      | _ :: _ :: _ :: _, none, h => simp [values] at h
      | _ :: _, some _, h => simp [values, Quad.groups] at h

end GroupRun

/-- What `mappedV4` makes of the text after `::ffff:`. -/
def mappedRest (rest : List Char) : Option Octets :=
  match matchDottedQuad rest with
  | some dotted => octetsOf dotted
  | none =>
      match rest.splitOn ':' with
      | [first, second] =>
          if isHexChunk first && isHexChunk second then
            let hi := numeral 16 first
            let lo := numeral 16 second
            some ((hi >>> 8) &&& 0xff, hi &&& 0xff, (lo >>> 8) &&& 0xff, lo &&& 0xff)
          else none
      | _ => none

theorem mappedV4_append (rest : List Char) :
    mappedV4 ("::ffff:".toList ++ rest) = mappedRest rest := by
  have hstart : startsWith ("::ffff:".toList ++ rest) "::ffff:" = true :=
    startsWith_iff.mpr ⟨rest, rfl⟩
  have hdrop : ("::ffff:".toList ++ rest).drop "::ffff:".toList.length = rest :=
    List.drop_left
  unfold mappedV4
  rw [if_pos hstart]
  dsimp only
  rw [hdrop]
  rfl

namespace GroupRun

/-- After `::ffff:` the pattern reads runs of two groups, as groups or as a
quad, and no other run. -/
theorem mappedV4_run (hne : run.chunks ≠ []) :
    mappedV4 ("::ffff:".toList ++ run.text) =
      if run.values.length = 2 then
        some (Address.octetsOfGroups (run.values.getD 0 0) (run.values.getD 1 0))
      else none := by
  rw [mappedV4_append, mappedRest]
  by_cases htwo : run.values.length = 2
  · rw [if_pos htwo]
    rcases values_two htwo with ⟨first, second, rfl⟩ | ⟨quad, rfl⟩
    · have hdot : matchDottedQuad (GroupRun.mk [first, second] none).text = none :=
        matchDottedQuad_of_dot_not_mem (dot_not_mem_text rfl)
      have hsplit := splitOn_text hne
      rw [hdot, hsplit]
      simp only [chunks, List.map_cons, List.map_nil, Option.toList_none, List.append_nil,
        HexGroup.isHexChunk_digits, Bool.and_self, if_true]
      exact congrArg some (mapped_octets_eq _ _ first.value_lt second.value_lt)
    · have htext : (GroupRun.mk [] (some quad)).text = quad.text := by
        simp [text, chunks]
      rw [htext, quad.matchDottedQuad_text]
      show octetsOf _ = _
      rw [quad.octetsOf_digits]
      simp [values, Quad.groups, Quad.octetsOfGroups_groups]
  · rw [if_neg htwo]
    cases run with
    | mk groups quad =>
        match groups, quad, hne, htwo with
        | [], none, hne, _ => exact absurd rfl hne
        | [], some _, _, htwo => simp [values, Quad.groups] at htwo
        | groups, none, hne, htwo =>
            have hdot : matchDottedQuad (GroupRun.mk groups none).text = none :=
              matchDottedQuad_of_dot_not_mem (dot_not_mem_text rfl)
            rw [hdot, splitOn_text hne]
            match groups, htwo with
            | [_], _ => rfl
            | _ :: _ :: _ :: _, _ => rfl
            | [_, _], htwo => simp [values] at htwo
        | first :: groups, some quad, hne, _ =>
            have hcolon : ':' ∈ (GroupRun.mk (first :: groups) (some quad)).text := by
              cases groups <;>
                simp [text, chunks, List.intercalate_cons_cons]
            have hquad : isHexChunk quad.text = false := by
              rw [isHexChunk, Bool.and_eq_false_iff, List.all_eq_false]
              exact Or.inr ⟨'.', quad.dot_mem_text, by decide⟩
            rw [matchDottedQuad_of_colon_mem hcolon, splitOn_text hne]
            match groups with
            | [] => simp [chunks, hquad]
            | [_] => rfl
            | _ :: _ :: _ => rfl

theorem text_cons (group : HexGroup) {rest : List HexGroup} {quad : Option Quad}
    (h : (GroupRun.mk rest quad).chunks ≠ []) :
    (GroupRun.mk (group :: rest) quad).text =
      group.digits ++ ':' :: (GroupRun.mk rest quad).text := by
  show [':'].intercalate (group.digits :: (GroupRun.mk rest quad).chunks) = _
  rw [List.intercalate_cons_of_ne_nil h]
  simp [text]

/-- A run that begins with the group `ffff`. -/
theorem exists_rest_of_startsWith {back : List Char} (h : run.text = "ffff:".toList ++ back) :
    exists rest : GroupRun, run.values = 0xffff :: rest.values ∧ rest.chunks ≠ [] ∧
      back = rest.text := by
  have hback : run.text = "ffff".toList ++ ':' :: back := h
  cases run with
  | mk groups quad =>
      cases groups with
      | nil =>
          cases quad with
          | none => simp [text, chunks] at hback
          | some quad =>
              have htext : (GroupRun.mk [] (some quad)).text = quad.text := by
                simp [text, chunks]
              have hmem : 'f' ∈ quad.text := by
                rw [← htext, hback]
                simp
              exact absurd (quad.text_subset hmem) (by decide)
      | cons group groups =>
          by_cases hrest : (GroupRun.mk groups quad).chunks = []
          · have htext : (GroupRun.mk (group :: groups) quad).text = group.digits := by
              have hchunks : (GroupRun.mk (group :: groups) quad).chunks =
                  group.digits :: (GroupRun.mk groups quad).chunks := rfl
              rw [text, hchunks, hrest, List.intercalate_singleton]
            have hmem : ':' ∈ group.digits := by
              rw [← htext, hback]
              simp
            exact absurd hmem group.colon_not_mem
          · rw [text_cons group hrest] at hback
            rcases append_colon_inj group.colon_not_mem (by decide) hback with
              ⟨hdigits, htail⟩
            have hvalue : group.value = 0xffff := by
              rw [HexGroup.value, hdigits]
              decide
            refine ⟨GroupRun.mk groups quad, ?_, hrest, htail.symm⟩
            simp [values, hvalue]

end GroupRun

/-- Behind `n` explicit groups after the `ffff`, the address is mapped just when
`n` is two. -/
theorem take_replicate_eq_mappedPrefix {values : List Nat} (h : values.length < 7) :
    (List.replicate (7 - values.length) 0 ++ 0xffff :: values).take 6 =
      Address.mappedPrefix <-> values.length = 2 := by
  match values, h with
  | [], _ => decide
  | [_], _ => simp [Address.mappedPrefix]
  | [_, _], _ => simp [Address.mappedPrefix]
  | [_, _, _], _ => simp [Address.mappedPrefix]
  | [_, _, _, _], _ => simp [Address.mappedPrefix]
  | [_, _, _, _, _], _ => simp [Address.mappedPrefix]
  | [_, _, _, _, _, _], _ => simp [Address.mappedPrefix]

namespace Ipv6Form

/-- A text starts with `::` or with a group. -/
theorem text_cases (form : Ipv6Form) :
    (exists tail size, form = compressed [] tail size) ∨
      exists (group : HexGroup) (back : List Char),
        form.text = group.digits ++ ':' :: back ∧ form.groups.headD 0 = group.value := by
  cases form with
  | full run size =>
      right
      cases run with
      | mk groups quad =>
          match groups, quad, size with
          | [], none, size => simp [GroupRun.values] at size
          | [], some _, size => simp [GroupRun.values, Quad.groups] at size
          | [_], none, size => simp [GroupRun.values] at size
          | [group], some quad, _ =>
              exact ⟨group, _, GroupRun.text_cons group (by simp [GroupRun.chunks]), rfl⟩
          | group :: _ :: _, quad, _ =>
              exact ⟨group, _, GroupRun.text_cons group (by simp [GroupRun.chunks]), rfl⟩
  | compressed head tail size =>
      cases head with
      | nil => exact Or.inl ⟨tail, size, rfl⟩
      | cons group head =>
          right
          cases head with
          | nil =>
              exact ⟨group, ':' :: tail.text,
                by simp [text, GroupRun.text, GroupRun.chunks], rfl⟩
          | cons next head =>
              have hrun := @GroupRun.text_cons group (next :: head) none
                (by simp [GroupRun.chunks])
              refine ⟨group, (GroupRun.mk (next :: head) none).text ++ ':' :: ':' :: tail.text,
                ?_, rfl⟩
              simp [text, hrun]

/-- What stands before the first colon is the first group, nothing standing for
zero. -/
theorem exists_leadingChunk (form : Ipv6Form) :
    exists chunk back, form.text = chunk ++ ':' :: back ∧ chunk.length ≤ 4 ∧
      chunk ⊆ hexDigits ∧ form.groups.headD 0 = numeral 16 chunk := by
  rcases form.text_cases with ⟨tail, size, rfl⟩ | ⟨group, back, htext, hhead⟩
  · have hzero : 8 - tail.values.length = 7 - tail.values.length + 1 := by
      simp only [List.length_nil] at size
      omega
    refine ⟨[], ':' :: tail.text, ?_, by decide, by simp, ?_⟩
    · simp [text, GroupRun.text, GroupRun.chunks]
    · simp [groups, hzero, List.replicate_succ, numeral]
  · exact ⟨group.digits, back, htext, group.short, group.hexadecimal, hhead⟩

theorem mappedV4_text (form : Ipv6Form) :
    mappedV4 form.text =
      if startsWith form.text "::ffff:" = true ∧ form.IsMapped then some form.carried
      else none := by
  by_cases hstart : startsWith form.text "::ffff:" = true
  · rcases startsWith_iff.mp hstart with ⟨back, hback⟩
    rcases form.text_cases with ⟨tail, size, rfl⟩ | ⟨group, rest, htext, _⟩
    · have htail : tail.text = "ffff:".toList ++ back := by
        simpa [text, GroupRun.text, GroupRun.chunks] using hback
      rcases GroupRun.exists_rest_of_startsWith htail with ⟨run, hvalues, hne, hrest⟩
      have hlen : run.values.length < 7 := by
        simp only [hvalues, List.length_nil, List.length_cons] at size
        omega
      have hgroupsEq : (compressed [] tail size).groups =
          List.replicate (7 - run.values.length) 0 ++ 0xffff :: run.values := by
        simp [Ipv6Form.groups, hvalues]
      have hmapped : (compressed [] tail size).IsMapped <-> run.values.length = 2 := by
        unfold IsMapped
        rw [hgroupsEq]
        exact take_replicate_eq_mappedPrefix hlen
      have hread : mappedV4 (compressed [] tail size).text =
          mappedV4 ("::ffff:".toList ++ run.text) := by
        rw [hback, hrest]
      rw [hread, GroupRun.mappedV4_run hne]
      by_cases htwo : run.values.length = 2
      · rw [if_pos htwo, if_pos ⟨hstart, hmapped.mpr htwo⟩, carried, hgroupsEq, htwo]
        simp
      · rw [if_neg htwo, if_neg (fun h => htwo (hmapped.mp h.2))]
    · -- a text that starts with a group does not start with a colon
      have hcolon : group.digits ++ ':' :: rest = [] ++ ':' :: (":ffff:".toList ++ back) := by
        rw [← htext, hback]
        rfl
      exact absurd (append_colon_inj group.colon_not_mem (by simp) hcolon).1 group.nonempty
  · have hnone : mappedV4 form.text = none := by
      simp [mappedV4, hstart]
    rw [hnone, if_neg (fun h => hstart h.1)]

end Ipv6Form

/-- What the IPv4 decoder makes of a form. -/
theorem Form.decodeIpv4_text (form : Form) :
    decodeIpv4 form.text =
      match form with
      | dotted quad => some quad.octets
      | integer n => some n.octets
      | ipv6 form => mappedV4 form.text := by
  cases form with
  | dotted quad => simp [decodeIpv4, text, quad.decimalV4_text]
  | integer n =>
      have hdot : '.' ∉ n.digits := fun h => absurd (n.decimal h) (by decide)
      have hstart : startsWith n.digits "::ffff:" = false := by
        rw [Bool.eq_false_iff]
        intro h
        rcases startsWith_iff.mp h with ⟨rest, heq⟩
        have hcolon : ':' ∈ n.digits := by simp [heq]
        exact absurd (n.decimal hcolon) (by decide)
      have hsmall : ¬ numeral 10 n.digits > 0xffffffff := by
        have hlt := n.small
        omega
      simp only [decodeIpv4, text, decimalV4, matchDottedQuad_of_dot_not_mem hdot, mappedV4,
        hstart, isDigits_of_subset n.nonempty n.decimal, hsmall, n.octets_eq]
      rfl
  | ipv6 form =>
      simp only [decodeIpv4, text, decimalV4_of_colon_mem form.colon_mem_text,
        isDigits_of_colon_mem form.colon_mem_text]
      cases mappedV4 form.text <;> rfl

end Network
end CatFactory
