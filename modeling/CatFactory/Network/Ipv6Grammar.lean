import CatFactory.Network.Decoding

/-!
# The IPv6 decoder and the grammar

What the decoder accepts is a form of the grammar, or two runs around `::` the
first of which ends in a dotted quad.  The second kind is no IPv6 address.
-/

namespace CatFactory
namespace Network

open Foundation

/-!
## Chunks that are accepted
-/

theorem exists_octet {chunk : List Char} (h : isShortDecimal chunk = true)
    (hsmall : numeral 10 chunk ≤ 255) : exists octet : Octet, octet.digits = chunk := by
  simp only [isShortDecimal, isDigits, Bool.and_eq_true, Bool.not_eq_true',
    List.isEmpty_eq_false_iff, decide_eq_true_eq, List.all_eq_true, List.contains_iff_mem] at h
  rcases h with ⟨⟨hne, hdigits⟩, hshort⟩
  exact ⟨{ digits := chunk, nonempty := hne, short := hshort, decimal := fun c hc => hdigits c hc,
           small := hsmall }, rfl⟩

/-- What the IPv4 decoder accepts is a quad. -/
theorem exists_quad {chunk : List Char} {octets : Octets} (h : decimalV4 chunk = some octets) :
    exists quad : Quad, quad.text = chunk := by
  unfold decimalV4 matchDottedQuad at h
  cases hsplit : chunk.splitOn '.' with
  | nil => exact absurd hsplit (List.splitOn_ne_nil '.' chunk)
  | cons first rest =>
      rw [hsplit] at h
      match rest, h with
      | [second, third, fourth], h =>
          dsimp only at h
          by_cases hshort : (isShortDecimal first && isShortDecimal second &&
              isShortDecimal third && isShortDecimal fourth) = true
          · rw [if_pos hshort] at h
            simp only [Bool.and_eq_true] at hshort
            rcases hshort with ⟨⟨⟨hfirst, hsecond⟩, hthird⟩, hfourth⟩
            simp only [octetsOf] at h
            split at h
            · cases h
            · rename_i hsmall
              simp only [Bool.or_eq_true, decide_eq_true_eq, not_or, gt_iff_lt, Nat.not_lt]
                at hsmall
              rcases hsmall with ⟨⟨⟨hfirstSmall, hsecondSmall⟩, hthirdSmall⟩, hfourthSmall⟩
              rcases exists_octet hfirst hfirstSmall with ⟨a, ha⟩
              rcases exists_octet hsecond hsecondSmall with ⟨b, hb⟩
              rcases exists_octet hthird hthirdSmall with ⟨c, hc⟩
              rcases exists_octet hfourth hfourthSmall with ⟨d, hd⟩
              refine ⟨{ a, b, c, d }, ?_⟩
              show ['.'].intercalate [a.digits, b.digits, c.digits, d.digits] = chunk
              rw [ha, hb, hc, hd, ← hsplit]
              exact List.intercalate_splitOn '.'
          · rw [if_neg hshort] at h
            cases h
      | [], h => cases h
      | [_], h => cases h
      | [_, _], h => cases h
      | _ :: _ :: _ :: _ :: _, h => cases h

theorem exists_hexGroup {chunk : List Char} (h : isHexChunk chunk = true) :
    exists group : HexGroup, group.digits = chunk := by
  simp only [isHexChunk, Bool.and_eq_true, Bool.not_eq_true', List.isEmpty_eq_false_iff,
    decide_eq_true_eq, List.all_eq_true, List.contains_iff_mem] at h
  rcases h with ⟨⟨hne, hshort⟩, hdigits⟩
  exact ⟨{ digits := chunk, nonempty := hne, short := hshort,
           hexadecimal := fun c hc => hdigits c hc }, rfl⟩

theorem exists_run_of_chunks {chunks : List (List Char)} {values : List Nat}
    (h : expandChunks chunks = some values) : exists run : GroupRun, run.chunks = chunks := by
  induction chunks generalizing values with
  | nil => exact ⟨{ groups := [], quad := none }, rfl⟩
  | cons chunk rest ih =>
      cases rest with
      | nil =>
          rw [expandChunks] at h
          by_cases hdot : chunk.contains '.' = true
          · rw [if_pos hdot] at h
            rcases Option.map_eq_some_iff.mp h with ⟨octets, hoctets, _⟩
            rcases exists_quad hoctets with ⟨quad, hquad⟩
            refine ⟨{ groups := [], quad := some quad }, ?_⟩
            rw [← hquad]
            rfl
          · rw [if_neg hdot] at h
            by_cases hhex : isHexChunk chunk = true
            · rcases exists_hexGroup hhex with ⟨group, hgroup⟩
              refine ⟨{ groups := [group], quad := none }, ?_⟩
              rw [← hgroup]
              rfl
            · rw [if_neg hhex] at h
              cases h
      | cons next rest =>
          rw [expandChunks] at h
          · by_cases hhex : isHexChunk chunk = true
            · rw [if_pos hhex] at h
              rcases Option.map_eq_some_iff.mp h with ⟨later, hlater, _⟩
              rcases exists_hexGroup hhex with ⟨group, hgroup⟩
              rcases ih hlater with ⟨run, hrun⟩
              refine ⟨{ run with groups := group :: run.groups }, ?_⟩
              rw [← hgroup, ← hrun]
              rfl
            · rw [if_neg hhex] at h
              cases h
          · intro heq
            cases heq

/-- What is accepted between the colons is a run of the grammar, with its values. -/
theorem exists_run {part : List Char} {values : List Nat}
    (h : expandIpv6Groups part = some values) :
    exists run : GroupRun, run.text = part ∧ run.values = values := by
  have htext : exists run : GroupRun, run.text = part := by
    rw [expandIpv6Groups] at h
    by_cases hempty : part = []
    · exact ⟨{ groups := [], quad := none }, hempty.symm⟩
    · rw [if_neg hempty] at h
      rcases exists_run_of_chunks h with ⟨run, hrun⟩
      refine ⟨run, ?_⟩
      rw [GroupRun.text, hrun]
      exact List.intercalate_splitOn ':'
  rcases htext with ⟨run, hrun⟩
  refine ⟨run, hrun, ?_⟩
  rw [← hrun, run.expandIpv6Groups_text] at h
  exact Option.some.inj h

theorem join_splitDoubleColon (host : List Char) :
    [':', ':'].intercalate (splitDoubleColon host) = host := by
  have hhead : forall (c : Char) (parts : List (List Char)), parts ≠ [] ->
      [':', ':'].intercalate (parts.modifyHead (c :: ·)) = c :: [':', ':'].intercalate parts := by
    intro c parts hne
    cases parts with
    | nil => exact absurd rfl hne
    | cons first rest =>
        cases rest with
        | nil => simp
        | cons second rest => simp [List.intercalate_cons_cons]
  have hboth : splitDoubleColon host ≠ [] ∧
      [':', ':'].intercalate (splitDoubleColon host) = host := by
    induction host using splitDoubleColon.induct with
    | case1 => exact ⟨List.cons_ne_nil _ _, rfl⟩
    | case2 rest ih =>
        rw [splitDoubleColon]
        refine ⟨List.cons_ne_nil _ _, ?_⟩
        rw [List.intercalate_cons_of_ne_nil ih.left, ih.right]
        rfl
    | case3 c rest hcolons ih =>
        rw [splitDoubleColon]
        · refine ⟨?_, ?_⟩
          · cases hsplit : splitDoubleColon rest with
            | nil => exact absurd hsplit ih.left
            | cons first later => exact List.cons_ne_nil _ _
          · rw [hhead c _ ih.left, ih.right]
        · exact hcolons
  exact hboth.right

/-!
## Spellings
-/

/-- A text reads so in lower case. -/
def Ipv6Form.Spelled (form : Ipv6Form) (text : List Char) : Prop :=
  text.map Char.toLower = form.text

/-- Two runs around `::` with less than eight groups, the first of which ends in a dotted quad. -/
def Misplaced (text : List Char) : Prop :=
  exists (head tail : GroupRun) (quad : Quad), head.quad = some quad ∧
    head.values.length + tail.values.length < 8 ∧
    text.map Char.toLower = head.text ++ ':' :: ':' :: tail.text

/-- Without brackets and without a zone id. -/
def Bare (text : List Char) : Prop :=
  '[' ∉ text ∧ ']' ∉ text ∧ '%' ∉ text

section Spelled

variable {text : List Char}

theorem toLowerChars_of_subset (h : toLowerChars text ⊆ addressChars) :
    toLowerChars text = text.map Char.toLower := by
  have hone : forall c, c ∈ text -> lowerChar c = [c.toLower] := by
    intro c hc
    have hmem : lowerChar c ⊆ addressChars := by
      intro d hd
      exact h (List.mem_flatMap.mpr ⟨c, hc, hd⟩)
    unfold lowerChar at hmem ⊢
    by_cases hkelvin : c = Char.ofNat 0x212A
    · rw [if_pos hkelvin] at hmem
      exact absurd (hmem List.mem_cons_self) (by decide)
    · rw [if_neg hkelvin] at hmem ⊢
      by_cases hdotted : c = Char.ofNat 0x0130
      · rw [if_pos hdotted] at hmem
        exact absurd (hmem List.mem_cons_self) (by decide)
      · rw [if_neg hdotted]
  unfold toLowerChars
  rw [List.flatMap_congr hone]
  exact List.map_eq_flatMap.symm

theorem lowerChars_of_spelled {spelling : List Char} (hsub : spelling ⊆ addressChars)
    (h : text.map Char.toLower = spelling) : hostOf text = spelling := by
  have hone : forall c, c ∈ text -> lowerChar c = [c.toLower] := by
    intro c hc
    apply (lowerChar_of_toLower_mem _).left
    apply List.mem_cons_of_mem
    apply List.mem_cons_of_mem
    apply hsub
    rw [← h]
    exact List.mem_map_of_mem hc
  have hlower : toLowerChars text = spelling := by
    unfold toLowerChars
    rw [List.flatMap_congr hone, ← h]
    exact List.map_eq_flatMap.symm
  rw [hostOf, hlower, stripBrackets_eq_self hsub]

/-- A character of the lower case that is no letter stands in the text itself. -/
theorem mem_of_mem_toLowerChars {bracket : Char} (hbracket : bracket = '[' ∨ bracket = ']')
    (h : bracket ∈ toLowerChars text) : bracket ∈ text := by
  rcases List.mem_flatMap.mp h with ⟨c, hc, hmem⟩
  have hsame : c = bracket := by
    unfold lowerChar at hmem
    by_cases hkelvin : c = Char.ofNat 0x212A
    · rw [if_pos hkelvin, List.mem_singleton] at hmem
      rcases hbracket with heq | heq <;> rw [heq] at hmem <;> exact absurd hmem (by decide)
    · rw [if_neg hkelvin] at hmem
      by_cases hdotted : c = Char.ofNat 0x0130
      · rw [if_pos hdotted] at hmem
        rcases hbracket with heq | heq <;> rw [heq] at hmem <;> exact absurd hmem (by decide)
      · rw [if_neg hdotted, List.mem_singleton] at hmem
        rcases toLower_cases c with heq | hupper
        · rw [hmem, heq]
        · have hall : upperLetters.all (fun d => d.toLower ≠ '[' ∧ d.toLower ≠ ']') = true := by
            decide
          have hne := of_decide_eq_true (List.all_eq_true.mp hall c hupper)
          rcases hbracket with heq | heq
          · exact absurd (hmem.symm.trans heq) hne.left
          · exact absurd (hmem.symm.trans heq) hne.right
  rw [← hsame]
  exact hc

theorem hostOf_bare (h : Bare text) : hostOf text = toLowerChars text := by
  have hopen : (toLowerChars text).head? ≠ some '[' := by
    intro heq
    exact h.left (mem_of_mem_toLowerChars (Or.inl rfl) (List.mem_of_head? heq))
  have hclose : (toLowerChars text).getLast? ≠ some ']' := by
    intro heq
    exact h.right.left (mem_of_mem_toLowerChars (Or.inr rfl) (List.mem_of_getLast? heq))
  simp only [hostOf, stripBrackets, hopen, hclose, if_false]

/-!
## The law
-/

theorem Ipv6Form.decodeIpv6_spelled {form : Ipv6Form} (h : form.Spelled text) :
    decodeIpv6 text = some form.groups := by
  have hhost : hostOf text = hostOf form.text := by
    rw [lowerChars_of_spelled form.text_subset h, hostOf_eq_self form.text_subset]
  have hdecode := form.decodeIpv6_text
  unfold decodeIpv6 at hdecode ⊢
  rw [hhost]
  exact hdecode

/-- What is accepted is a form, or has its quad in the wrong place. -/
theorem spelled_or_misplaced (hbare : Bare text) {groups : List Nat}
    (h : decodeIpv6 text = some groups) :
    (exists form : Ipv6Form, form.Spelled text) ∨ Misplaced text := by
  simp only [decodeIpv6, hostOf_bare hbare] at h
  have hjoin := join_splitDoubleColon (toLowerChars text)
  split at h
  · cases h
  · split at h
    · rename_i whole hsplit
      rw [hsplit, List.intercalate_singleton] at hjoin
      split at h
      · rename_i head hhead
        rcases exists_run hhead with ⟨run, htext, hvalues⟩
        split at h
        · rename_i hsize
          have hsub : toLowerChars text ⊆ addressChars := by
            rw [← hjoin, ← htext]
            exact run.text_subset
          refine Or.inl ⟨.full run (by rw [hvalues]; exact hsize), ?_⟩
          rw [Ipv6Form.Spelled, ← toLowerChars_of_subset hsub, ← hjoin, ← htext]
          rfl
        · cases h
      · cases h
    · rename_i first second hsplit
      rw [hsplit, List.intercalate_cons_cons, List.intercalate_singleton] at hjoin
      split at h
      · rename_i head tail hhead htail
        rcases exists_run hhead with ⟨front, hfront, hfrontValues⟩
        rcases exists_run htail with ⟨back, hback, hbackValues⟩
        split at h
        · rename_i hfilled
          have hsize : front.values.length + back.values.length < 8 := by
            rw [hfrontValues, hbackValues]
            omega
          have hhost : toLowerChars text = front.text ++ ':' :: ':' :: back.text := by
            rw [← hjoin, ← hfront, ← hback]
            simp
          have hsub : toLowerChars text ⊆ addressChars := by
            have hcolon : ':' ∈ addressChars := by decide
            rw [hhost]
            simp only [List.append_subset, List.cons_subset]
            exact ⟨front.text_subset, hcolon, hcolon, back.text_subset⟩
          rw [toLowerChars_of_subset hsub] at hhost
          cases hquad : front.quad with
          | none =>
              have hfrontEq : front = { groups := front.groups, quad := none } := by
                rw [← hquad]
              have hlength : front.values.length = front.groups.length := by
                rw [GroupRun.values, hquad]
                simp
              refine Or.inl ⟨.compressed front.groups back (by rw [← hlength]; exact hsize), ?_⟩
              rw [Ipv6Form.Spelled, hhost, Ipv6Form.text, ← hfrontEq]
          | some quad => exact Or.inr ⟨front, back, quad, hquad, hsize, hhost⟩
        · cases h
      · cases h
    · cases h

theorem splitDoubleColon_runs (head tail : GroupRun) :
    splitDoubleColon (head.text ++ ':' :: ':' :: tail.text) = [head.text, tail.text] := by
  have hrun : forall (run : GroupRun) (rest : List Char), splitDoubleColon (run.text ++ rest) =
      (splitDoubleColon rest).modifyHead (run.text ++ ·) := fun run rest =>
    splitDoubleColon_intercalate (fun _ h => GroupRun.chunk_ne_nil h)
      (fun _ h => GroupRun.colon_not_mem_chunk h) rest
  have htail : splitDoubleColon tail.text = [tail.text] := by
    simpa [splitDoubleColon] using hrun tail []
  simp [hrun, splitDoubleColon, htail]

/-- A misplaced quad is accepted all the same. -/
theorem decodeIpv6_misplaced (h : Misplaced text) : (decodeIpv6 text).isSome = true := by
  rcases h with ⟨head, tail, quad, _, hsize, hspelled⟩
  have hsub : head.text ++ ':' :: ':' :: tail.text ⊆ addressChars := by
    have hcolon : ':' ∈ addressChars := by decide
    simp only [List.append_subset, List.cons_subset]
    exact ⟨head.text_subset, hcolon, hcolon, tail.text_subset⟩
  have hpercent : '%' ∉ head.text ++ ':' :: ':' :: tail.text := by
    intro hmem
    exact absurd (hsub hmem) (by decide)
  have hliteral : (!(head.text ++ ':' :: ':' :: tail.text).contains ':' ||
      (head.text ++ ':' :: ':' :: tail.text).contains '%') = false := by
    simp [hpercent]
  have hfilled : 1 ≤ 8 - head.values.length - tail.values.length := by omega
  simp only [decodeIpv6, lowerChars_of_spelled hsub hspelled, hliteral, splitDoubleColon_runs,
    GroupRun.expandIpv6Groups_text, if_pos hfilled]
  rfl

/-- A misplaced quad is no form of the grammar. -/
theorem not_spelled_of_misplaced (h : Misplaced text) (form : Ipv6Form) : ¬ form.Spelled text := by
  rcases h with ⟨head, tail, quad, hquad, _, hspelled⟩
  intro hform
  have htext : form.text = head.text ++ ':' :: ':' :: tail.text := hform.symm.trans hspelled
  have hsplit := form.splitDoubleColon_text
  rw [htext, splitDoubleColon_runs] at hsplit
  have hdot : '.' ∈ head.text := by
    rcases head with ⟨groups, headQuad⟩
    rw [show headQuad = some quad from hquad]
    rcases intercalate_concat (x := ':') (groups.map HexGroup.digits) quad.text with
      ⟨front, hfront⟩
    show '.' ∈ [':'].intercalate (groups.map HexGroup.digits ++ [quad.text])
    rw [hfront]
    exact List.mem_append_right _ quad.dot_mem_text
  cases form with
  | full run size =>
      have hlength := congrArg List.length hsplit
      simp at hlength
  | compressed groups back size =>
      have hhead : head.text = (GroupRun.mk groups none).text := (List.cons.inj hsplit).left
      rw [hhead] at hdot
      exact GroupRun.dot_not_mem_text rfl hdot

theorem GroupRun.value_le (run : GroupRun) {value : Nat} (h : value ∈ run.values) :
    value ≤ 65535 := by
  rcases List.mem_append.mp h with hgroup | hquad
  · rcases List.mem_map.mp hgroup with ⟨group, _, heq⟩
    rw [← heq]
    exact Nat.le_of_lt_succ group.value_lt
  · rcases List.mem_flatMap.mp hquad with ⟨quad, _, hmem⟩
    have ha := quad.a.value_le
    have hb := quad.b.value_le
    have hc := quad.c.value_le
    have hd := quad.d.value_le
    simp only [Quad.groups, List.mem_cons, List.not_mem_nil, or_false] at hmem
    omega

theorem Ipv6Form.group_le (form : Ipv6Form) {value : Nat} (h : value ∈ form.groups) :
    value ≤ 65535 := by
  cases form with
  | full run size => exact run.value_le h
  | compressed head tail size =>
      rcases List.mem_append.mp h with hfront | htail
      · rcases List.mem_append.mp hfront with hhead | hzeros
        · rcases List.mem_map.mp hhead with ⟨group, _, heq⟩
          rw [← heq]
          exact Nat.le_of_lt_succ group.value_lt
        · rw [List.eq_of_mem_replicate hzeros]
          exact Nat.zero_le _
      · exact tail.value_le htail

end Spelled

/-- What decoding a text must keep to. -/
structure GrammarLaw (text : List Char) : Prop where
  accepted : (decodeIpv6 text).isSome = true <-> exists form : Ipv6Form, form.Spelled text
  denoted : forall form : Ipv6Form, form.Spelled text -> decodeIpv6 text = some form.groups
  bounded : forall groups, decodeIpv6 text = some groups ->
    groups.length = 8 ∧ forall value, value ∈ groups -> value ≤ 65535
  /-- Spellings of one address decode alike. -/
  same : forall (text' : List Char) (form form' : Ipv6Form), form.Spelled text ->
    form'.Spelled text' -> form.groups = form'.groups -> decodeIpv6 text = decodeIpv6 text'

/-- The decoder reads the grammar, a quad before the `::` apart. -/
theorem decodeIpv6_law (text : List Char) (hbare : Bare text) :
    GrammarLaw text <-> ¬ Misplaced text := by
  constructor
  · intro h hmisplaced
    rcases h.accepted.mp (decodeIpv6_misplaced hmisplaced) with ⟨form, hform⟩
    exact not_spelled_of_misplaced hmisplaced form hform
  · intro hplaced
    have hform : forall groups, decodeIpv6 text = some groups ->
        exists form : Ipv6Form, form.Spelled text := by
      intro groups hgroups
      cases spelled_or_misplaced hbare hgroups with
      | inl hspelled => exact hspelled
      | inr hmisplaced => exact absurd hmisplaced hplaced
    constructor
    · constructor
      · intro hsome
        rcases Option.isSome_iff_exists.mp hsome with ⟨groups, hgroups⟩
        exact hform groups hgroups
      · intro hspelled
        rcases hspelled with ⟨form, hspelled⟩
        rw [form.decodeIpv6_spelled hspelled]
        rfl
    · intro form hspelled
      exact form.decodeIpv6_spelled hspelled
    · intro groups hgroups
      rcases hform groups hgroups with ⟨form, hspelled⟩
      rw [form.decodeIpv6_spelled hspelled] at hgroups
      rw [← Option.some.inj hgroups]
      exact ⟨form.groups_length, fun value hvalue => form.group_le hvalue⟩
    · intro text' form form' hspelled hspelled' hsame
      rw [form.decodeIpv6_spelled hspelled, form'.decodeIpv6_spelled hspelled', hsame]

theorem decodeIpv6_law_mapped : GrammarLaw "::FFFF:127.0.0.1".toList := by
  apply (decodeIpv6_law "::FFFF:127.0.0.1".toList
    ⟨by decide, by decide, by decide⟩).mpr
  intro h
  rcases h with ⟨head, tail, quad, hquad, _, hspelled⟩
  have hsplit := congrArg splitDoubleColon hspelled
  rw [splitDoubleColon_runs] at hsplit
  have hempty : [] = head.text := (List.cons.inj hsplit).left
  have hchunks := GroupRun.text_eq_nil_iff.mp hempty.symm
  rw [GroupRun.chunks, hquad] at hchunks
  exact absurd (List.append_eq_nil_iff.mp hchunks).right (List.cons_ne_nil _ _)

theorem not_decodeIpv6_law : ¬ GrammarLaw "1.2.3.4::5".toList := by
  intro h
  have hsome : (decodeIpv6 "1.2.3.4::5".toList).isSome = true := by decide
  rcases h.accepted.mp hsome with ⟨form, hform⟩
  have hsplit := form.splitDoubleColon_text
  have hparts : splitDoubleColon form.text = ["1.2.3.4".toList, "5".toList] := by
    rw [← show "1.2.3.4::5".toList.map Char.toLower = form.text from hform]
    decide
  rw [hparts] at hsplit
  cases form with
  | full run size =>
      have hlength := congrArg List.length hsplit
      simp at hlength
  | compressed groups tail size =>
      have hhead : "1.2.3.4".toList = (GroupRun.mk groups none).text := (List.cons.inj hsplit).left
      have hdot : '.' ∉ (GroupRun.mk groups none).text := GroupRun.dot_not_mem_text rfl
      rw [← hhead] at hdot
      exact hdot (by decide)

end Network
end CatFactory
