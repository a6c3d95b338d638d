import CatFactory.Foundation.KeyedFold
import CatFactory.Requirements.Recommendations
import Mathlib.Data.List.Induction

/-!
# Which finding an entry reaches

The first entry that names a finding is chosen for it.  The spare entries are
dealt, in order, to the findings that no entry names.  An entry that names a
finding a second time is among the spare ones.
-/

namespace CatFactory
namespace Requirements

open Foundation

attribute [local instance] lawfulBEq_units

variable {num : Type}

/-!
## The two passes
-/

/-- An entry that names a finding of the chunk. -/
def Names (ids : List (List Nat)) (entry : ReplyEntry num) : Prop :=
  entry.itemId ≠ [] ∧ entry.itemId ∈ ids

instance (ids : List (List Nat)) (entry : ReplyEntry num) : Decidable (Names ids entry) :=
  inferInstanceAs (Decidable (_ ∧ _))

/-- The first entry that names its finding. -/
def IsFirst (ids : List (List Nat)) (entries : List (ReplyEntry num))
    (entry : ReplyEntry num × Nat) : Prop :=
  Names ids entry.1 ∧ entry.1.itemId ∉ (entries.take entry.2).map ReplyEntry.itemId

instance (ids : List (List Nat)) (entries : List (ReplyEntry num))
    (entry : ReplyEntry num × Nat) : Decidable (IsFirst ids entries entry) :=
  inferInstanceAs (Decidable (_ ∧ _))

def chosen (ids : List (List Nat)) (entries : List (ReplyEntry num)) :
    List (ReplyEntry num × Nat) :=
  entries.zipIdx.filter fun entry => IsFirst ids entries entry

def spare (ids : List (List Nat)) (entries : List (ReplyEntry num)) :
    List (ReplyEntry num × Nat) :=
  entries.zipIdx.filter fun entry => ¬ IsFirst ids entries entry

/-- The findings that no entry names. -/
def unanswered (ids : List (List Nat)) (entries : List (ReplyEntry num)) : List (List Nat) :=
  ids.filter fun id => ¬ (id ≠ [] ∧ id ∈ entries.map ReplyEntry.itemId)

/-- The entry that each finding is given, with its place in the reply. -/
def routes (ids : List (List Nat)) (entries : List (ReplyEntry num)) :
    List (List Nat × (ReplyEntry num × Nat)) :=
  ((chosen ids entries).map fun entry => (entry.1.itemId, entry)) ++
    (unanswered ids entries).zip (spare ids entries)

section Passes

variable {ids : List (List Nat)} {entries : List (ReplyEntry num)}

theorem isFirst_snoc {entry : ReplyEntry num × Nat} (h : entry ∈ entries.zipIdx)
    (last : ReplyEntry num) :
    IsFirst ids (entries ++ [last]) entry <-> IsFirst ids entries entry := by
  have hlt : entry.2 < entries.length := by
    have hget := List.mem_zipIdx_iff_getElem?.mp h
    exact (List.getElem?_eq_some_iff.mp hget).1
  rw [IsFirst, IsFirst, List.take_append_of_le_length (Nat.le_of_lt hlt)]

theorem chosen_snoc (last : ReplyEntry num) :
    chosen ids (entries ++ [last]) =
      chosen ids entries ++
        if Names ids last ∧ last.itemId ∉ entries.map ReplyEntry.itemId then
          [(last, entries.length)]
        else [] := by
  rw [chosen, List.zipIdx_append, List.filter_append]
  congr 1
  · apply List.filter_congr
    intro entry hentry
    exact decide_eq_decide.mpr (isFirst_snoc hentry last)
  · rw [Nat.zero_add, List.zipIdx_singleton, List.filter_singleton]
    simp [IsFirst]

/-- The findings that were chosen for are those that some entry names. -/
theorem mem_chosen_ids {id : List Nat} :
    id ∈ (chosen ids entries).map (fun entry => entry.1.itemId) <->
      id ≠ [] ∧ id ∈ ids ∧ id ∈ entries.map ReplyEntry.itemId := by
  induction entries using List.reverseRecOn with
  | nil => simp [chosen]
  | append_singleton entries last ih =>
      rw [chosen_snoc, List.map_append, List.mem_append, ih, List.map_append, List.mem_append]
      by_cases hfirst : Names ids last ∧ last.itemId ∉ entries.map ReplyEntry.itemId
      · rw [if_pos hfirst]
        constructor
        · intro h
          rcases h with ⟨hne, hids, hmem⟩ | hlast
          · exact ⟨hne, hids, Or.inl hmem⟩
          · rw [List.map_singleton, List.mem_singleton] at hlast
            rw [hlast]
            exact ⟨hfirst.left.left, hfirst.left.right, Or.inr (List.mem_singleton.mpr rfl)⟩
        · intro h
          rcases h with ⟨hne, hids, hmem | hlast⟩
          · exact Or.inl ⟨hne, hids, hmem⟩
          · exact Or.inr hlast
      · rw [if_neg hfirst]
        constructor
        · intro h
          rcases h with ⟨hne, hids, hmem⟩ | hnone
          · exact ⟨hne, hids, Or.inl hmem⟩
          · cases hnone
        · intro h
          rcases h with ⟨hne, hids, hmem | hlast⟩
          · exact Or.inl ⟨hne, hids, hmem⟩
          · have heq : id = last.itemId := List.mem_singleton.mp hlast
            rw [heq] at hne hids ⊢
            by_contra hnot
            apply hfirst
            refine ⟨⟨hne, hids⟩, ?_⟩
            intro hmem
            exact hnot (Or.inl ⟨hne, hids, hmem⟩)

theorem lookup_isNone_iff {key value : Type} [DecidableEq key] [BEq key] [LawfulBEq key] {k : key}
    {found : List (key × value)} :
    (found.lookup k).isNone = true <-> k ∉ found.map Prod.fst := by
  rw [Option.isNone_iff_eq_none, List.lookup_eq_none_iff]
  constructor
  · intro h hmem
    rcases List.mem_map.mp hmem with ⟨pair, hpair, hkey⟩
    have hne := h pair hpair
    rw [hkey] at hne
    simp at hne
  · intro h pair hpair
    apply bne_iff_ne.mpr
    intro heq
    exact h (List.mem_map.mpr ⟨pair, hpair, heq.symm⟩)

/-- The first pass. -/
theorem foldl_routeNamed (ids : List (List Nat)) (entries : List (ReplyEntry num)) :
    entries.zipIdx.foldl (routeNamed ids) {} =
      { out := (chosen ids entries).map fun entry => (entry.1.itemId, entry.1.suggestion)
        consumed := (chosen ids entries).map Prod.snd } := by
  induction entries using List.reverseRecOn with
  | nil => rfl
  | append_singleton entries last ih =>
      rw [List.zipIdx_append, List.foldl_append, ih, chosen_snoc, Nat.zero_add,
        List.zipIdx_singleton, List.foldl_cons, List.foldl_nil, routeNamed]
      have hkeys : (((chosen ids entries).map fun entry =>
          (entry.1.itemId, entry.1.suggestion)).lookup last.itemId).isNone = true <->
            ¬ (last.itemId ≠ [] ∧ last.itemId ∈ ids ∧
              last.itemId ∈ entries.map ReplyEntry.itemId) := by
        rw [lookup_isNone_iff, ← mem_chosen_ids, List.map_map]
        rfl
      by_cases hfirst : Names ids last ∧ last.itemId ∉ entries.map ReplyEntry.itemId
      · have hfresh := hkeys.mpr fun h => hfirst.right h.right.right
        rw [if_pos ⟨hfirst.left.left, hfirst.left.right, hfresh⟩, if_pos hfirst, List.map_append,
          List.map_append]
        rfl
      · have hskip : ¬ (last.itemId ≠ [] ∧ last.itemId ∈ ids ∧
            (((chosen ids entries).map fun entry =>
              (entry.1.itemId, entry.1.suggestion)).lookup last.itemId).isNone = true) := by
          intro h
          apply hfirst
          refine ⟨⟨h.left, h.right.left⟩, ?_⟩
          intro hmem
          exact hkeys.mp h.right.right ⟨h.left, h.right.left, hmem⟩
        rw [if_neg hskip, if_neg hfirst, List.append_nil]

/-- The leftover of the first pass is what is spare. -/
theorem leftover_eq (ids : List (List Nat)) (entries : List (ReplyEntry num)) :
    (entries.zipIdx.filter fun entry => entry.2 ∉ (chosen ids entries).map Prod.snd) =
      spare ids entries := by
  apply List.filter_congr
  intro entry hentry
  apply decide_eq_decide.mpr
  apply not_congr
  constructor
  · intro h
    rcases List.mem_map.mp h with ⟨other, hother, hplace⟩
    rcases List.mem_filter.mp hother with ⟨hmem, hfirst⟩
    have heq : other = entry := by
      apply Prod.ext
      · have hget := List.mem_zipIdx_iff_getElem?.mp hmem
        have hget' := List.mem_zipIdx_iff_getElem?.mp hentry
        rw [hplace, hget'] at hget
        exact (Option.some.inj hget).symm
      · exact hplace
    rw [heq] at hfirst
    exact of_decide_eq_true hfirst
  · intro h
    exact List.mem_map.mpr ⟨entry, List.mem_filter.mpr ⟨hentry, decide_eq_true h⟩, rfl⟩

theorem map_snd_zip {first second : Type} (xs : List first) (ys : List second) :
    (xs.zip ys).map Prod.snd = ys.take xs.length := by
  induction xs generalizing ys with
  | nil => simp
  | cons x xs ih =>
      cases ys with
      | nil => rfl
      | cons y ys => rw [List.zip_cons_cons, List.map_cons, ih, List.length_cons, List.take_succ_cons]

/-- The second pass deals the leftover to the findings without a suggestion. -/
theorem fillLeftover_eq {findings : List RequirementReviewItem}
    (hnodup : (findings.map RequirementReviewItem.id).Nodup) (leftover : List (ReplyEntry num))
    (out : List (List Nat × WriterSuggestion num)) :
    fillLeftover findings leftover out =
      out ++ ((findings.map RequirementReviewItem.id).filter fun id =>
        id ∉ out.map Prod.fst).zip (leftover.map ReplyEntry.suggestion) := by
  induction findings generalizing leftover out with
  | nil => simp [fillLeftover]
  | cons finding findings ih =>
      rw [List.map_cons, List.nodup_cons] at hnodup
      cases leftover with
      | nil => simp [fillLeftover]
      | cons entry rest =>
          rw [fillLeftover, List.map_cons, List.filter_cons]
          by_cases hhas : finding.id ∈ out.map Prod.fst
          · have hsome : (out.lookup finding.id).isSome = true := by
              by_contra hnone
              rw [Bool.not_eq_true, Option.isSome_eq_false_iff, lookup_isNone_iff] at hnone
              exact hnone hhas
            rw [if_pos hsome, ih hnodup.right, if_neg (by simpa using hhas)]
          · have hnone : ¬ (out.lookup finding.id).isSome = true := by
              rw [Bool.not_eq_true, Option.isSome_eq_false_iff, lookup_isNone_iff]
              exact hhas
            have hrest : ((findings.map RequirementReviewItem.id).filter fun id =>
                id ∉ (out ++ [(finding.id, entry.suggestion)]).map Prod.fst) =
                  (findings.map RequirementReviewItem.id).filter fun id =>
                    id ∉ out.map Prod.fst := by
              apply List.filter_congr
              intro id hid
              have hne : id ≠ finding.id := by
                intro heq
                rw [heq] at hid
                exact hnodup.left hid
              simp [hne]
            rw [if_neg hnone, ih hnodup.right, hrest, if_pos (by simpa using hhas),
              List.append_assoc]
            rfl

end Passes

/-!
## What the routes are
-/

section Routes

variable {ids : List (List Nat)} {entries : List (ReplyEntry num)}

theorem nodup_chosen_ids : ((chosen ids entries).map fun entry => entry.1.itemId).Nodup := by
  induction entries using List.reverseRecOn with
  | nil => exact List.nodup_nil
  | append_singleton entries last ih =>
      rw [chosen_snoc, List.map_append]
      by_cases hfirst : Names ids last ∧ last.itemId ∉ entries.map ReplyEntry.itemId
      · rw [if_pos hfirst, List.map_singleton, ← List.concat_eq_append]
        apply ih.concat
        intro hmem
        exact hfirst.right (mem_chosen_ids.mp hmem).right.right
      · rw [if_neg hfirst, List.map_nil, List.append_nil]
        exact ih

theorem map_fst_zip {first second : Type} (xs : List first) (ys : List second) :
    (xs.zip ys).map Prod.fst = xs.take ys.length := by
  induction xs generalizing ys with
  | nil => simp
  | cons x xs ih =>
      cases ys with
      | nil => rfl
      | cons y ys => rw [List.zip_cons_cons, List.map_cons, ih, List.length_cons, List.take_succ_cons]

/-- No finding is given two entries. -/
theorem nodup_routes_ids (hnodup : ids.Nodup) : ((routes ids entries).map Prod.fst).Nodup := by
  rw [routes, List.map_append, List.map_map, map_fst_zip]
  apply List.nodup_append.mpr
  refine ⟨nodup_chosen_ids, ?_, ?_⟩
  · exact (hnodup.filter _).sublist (List.take_sublist _ _)
  · intro id hchosen id' hopen heq
    rw [← heq] at hopen
    have hmem := List.mem_of_mem_take hopen
    rw [unanswered, List.mem_filter, decide_eq_true_eq] at hmem
    have hnamed := mem_chosen_ids.mp hchosen
    exact hmem.right ⟨hnamed.left, hnamed.right.right⟩

theorem nodup_zipIdx (entries : List (ReplyEntry num)) : entries.zipIdx.Nodup := by
  apply List.Nodup.of_map Prod.snd
  rw [List.zipIdx_map_snd]
  exact List.nodup_range'

/-- No entry is given to two findings. -/
theorem nodup_routes_entries : ((routes ids entries).map Prod.snd).Nodup := by
  rw [routes, List.map_append, List.map_map, map_snd_zip]
  apply List.nodup_append.mpr
  refine ⟨?_, ?_, ?_⟩
  · show ((chosen ids entries).map id).Nodup
    rw [List.map_id]
    exact (nodup_zipIdx entries).filter _
  · exact ((nodup_zipIdx entries).filter _).sublist (List.take_sublist _ _)
  · intro entry hchosen entry' hspare heq
    change entry ∈ (chosen ids entries).map id at hchosen
    rw [List.map_id] at hchosen
    rw [← heq] at hspare
    have hnot := (List.mem_filter.mp (List.mem_of_mem_take hspare)).right
    have hfirst := (List.mem_filter.mp hchosen).right
    exact absurd (of_decide_eq_true hfirst) (of_decide_eq_true hnot)

/-- A route is a finding of the chunk and an entry of the reply. -/
theorem mem_routes {route : List Nat × (ReplyEntry num × Nat)} (h : route ∈ routes ids entries) :
    route.1 ∈ ids ∧ entries[route.2.2]? = some route.2.1 := by
  rcases List.mem_append.mp h with hchosen | hdealt
  · rcases List.mem_map.mp hchosen with ⟨entry, hentry, heq⟩
    rcases List.mem_filter.mp hentry with ⟨hmem, hfirst⟩
    rw [← heq]
    exact ⟨(of_decide_eq_true hfirst).left.right, List.mem_zipIdx_iff_getElem?.mp hmem⟩
  · rcases List.of_mem_zip (a := route.1) (b := route.2) hdealt with ⟨hopen, hspare⟩
    exact ⟨(List.mem_filter.mp hopen).left,
      List.mem_zipIdx_iff_getElem?.mp (List.mem_filter.mp hspare).left⟩

/-- A finding that some entry names is given the first that does. -/
theorem routes_named {id : List Nat} (hids : id ∈ ids) (hne : id ≠ []) {entry : ReplyEntry num}
    (hfind : (entries.find? fun entry => entry.itemId = id) = some entry) :
    exists place, (id, (entry, place)) ∈ routes ids entries := by
  have hentry : entry.itemId = id := by
    simpa using List.find?_some hfind
  have hmem : id ∈ entries.map ReplyEntry.itemId :=
    List.mem_map.mpr ⟨entry, List.mem_of_find?_eq_some hfind, hentry⟩
  have hchosen := mem_chosen_ids.mpr ⟨hne, hids, hmem⟩
  rcases List.mem_map.mp hchosen with ⟨⟨first, place⟩, hfirst, hid⟩
  rcases List.mem_filter.mp hfirst with ⟨hplace, hisFirst⟩
  have hget := List.mem_zipIdx_iff_getElem?.mp hplace
  have hfirstFind : (entries.find? fun entry => entry.itemId = id) = some first := by
    rcases List.getElem?_eq_some_iff.mp hget with ⟨hlt, heq⟩
    apply List.find?_eq_some_iff_append.mpr
    refine ⟨decide_eq_true hid, entries.take place, entries.drop (place + 1), ?_, ?_⟩
    · have hdrop := List.drop_eq_getElem_cons hlt
      change entries[place] = first at heq
      rw [heq] at hdrop
      rw [← hdrop, List.take_append_drop]
    · intro other hother
      rw [Bool.not_eq_true', decide_eq_false_iff_not]
      intro heq
      apply (of_decide_eq_true hisFirst).right
      change first.itemId ∈ (entries.take place).map ReplyEntry.itemId
      rw [show first.itemId = id from hid]
      exact List.mem_map.mpr ⟨other, hother, heq⟩
  have hsame : first = entry := Option.some.inj (hfirstFind.symm.trans hfind)
  refine ⟨place, List.mem_append_left _ (List.mem_map.mpr ⟨(first, place), hfirst, ?_⟩)⟩
  rw [← hsame, ← hid]

/-- The entries that are dealt out. -/
def dealt (ids : List (List Nat)) (entries : List (ReplyEntry num)) : List (ReplyEntry num × Nat) :=
  (spare ids entries).take (unanswered ids entries).length

/-- Every route keeps to the name of its entry exactly when no entry that is dealt out names a
finding. -/
theorem routes_own_iff :
    (forall route, route ∈ routes ids entries -> Names ids route.2.1 ->
        route.2.1.itemId = route.1) <->
      forall entry, entry ∈ dealt ids entries -> ¬ Names ids entry.1 := by
  constructor
  · intro h entry hentry hnames
    rw [dealt, ← map_snd_zip] at hentry
    rcases List.mem_map.mp hentry with ⟨route, hroute, hsnd⟩
    have hown := h route (List.mem_append_right _ hroute) (by rw [hsnd]; exact hnames)
    rcases List.of_mem_zip (a := route.1) (b := route.2) hroute with ⟨hopen, hspare⟩
    apply of_decide_eq_true (List.mem_filter.mp hopen).right
    rw [← hown, hsnd]
    refine ⟨hnames.left, List.mem_map.mpr ⟨entry.1, ?_, rfl⟩⟩
    rw [hsnd] at hspare
    exact List.mem_of_getElem? (List.mem_zipIdx_iff_getElem?.mp (List.mem_filter.mp hspare).left)
  · intro h route hroute hnames
    rcases List.mem_append.mp hroute with hchosen | hdealt
    · rcases List.mem_map.mp hchosen with ⟨entry, _, heq⟩
      rw [← heq]
    · have hmem : route.2 ∈ dealt ids entries := by
        rw [dealt, ← map_snd_zip]
        exact List.mem_map.mpr ⟨route, hdealt, rfl⟩
      exact absurd hnames (h route.2 hmem)

theorem spare_of_named (hall : forall entry, entry ∈ entries -> Names ids entry)
    (hdistinct : (entries.map ReplyEntry.itemId).Nodup) : spare ids entries = [] := by
  apply List.filter_eq_nil_iff.mpr
  intro entry hentry
  have hget := List.mem_zipIdx_iff_getElem?.mp hentry
  rcases List.getElem?_eq_some_iff.mp hget with ⟨hlt, heq⟩
  have hsplit : entries = entries.take entry.2 ++ entry.1 :: entries.drop (entry.2 + 1) := by
    rw [← heq, ← List.drop_eq_getElem_cons hlt, List.take_append_drop]
  rw [hsplit, List.map_append, List.nodup_append] at hdistinct
  have hfirst : IsFirst ids entries entry := by
    refine ⟨hall entry.1 (List.mem_of_getElem? hget), ?_⟩
    intro hmem
    exact hdistinct.right.right _ hmem _ List.mem_cons_self rfl
  rw [decide_eq_true_eq]
  exact not_not_intro hfirst

/-- Where every entry names a finding of its own, the routes are the entries. -/
theorem mem_routes_of_named (hall : forall entry, entry ∈ entries -> Names ids entry)
    (hdistinct : (entries.map ReplyEntry.itemId).Nodup) {id : List Nat}
    {suggestion : WriterSuggestion num} :
    (exists route, route ∈ routes ids entries ∧ route.1 = id ∧
        route.2.1.suggestion = suggestion) <->
      exists entry, entry ∈ entries ∧ entry.itemId = id ∧ entry.suggestion = suggestion := by
  constructor
  · intro h
    rcases h with ⟨route, hroute, hid, hsuggestion⟩
    have hentry := List.mem_of_getElem? (mem_routes hroute).right
    refine ⟨route.2.1, hentry, ?_, hsuggestion⟩
    rw [← hid]
    apply routes_own_iff.mpr _ route hroute (hall _ hentry)
    intro entry hdealt
    rw [dealt, spare_of_named hall hdistinct] at hdealt
    simp at hdealt
  · intro h
    rcases h with ⟨entry, hentry, hid, hsuggestion⟩
    have hnames := hall entry hentry
    have hsome : (entries.find? fun other => other.itemId = id).isSome = true :=
      List.find?_isSome.mpr ⟨entry, hentry, decide_eq_true hid⟩
    rcases Option.isSome_iff_exists.mp hsome with ⟨found, hfound⟩
    have hfoundId : found.itemId = id := by
      simpa using List.find?_some hfound
    have hsame : found = entry := List.inj_on_of_nodup_map hdistinct
      (List.mem_of_find?_eq_some hfound) hentry (hfoundId.trans hid.symm)
    rw [← hid] at hfound ⊢
    rcases routes_named hnames.right hnames.left hfound with ⟨place, hroute⟩
    rw [hsame] at hroute
    exact ⟨_, hroute, rfl, hsuggestion⟩

end Routes

section Chunk

variable {isFraction : num -> Bool} {raw : Json num} {findings : List RequirementReviewItem}

/-- Every finding is given the entry that is routed to it. -/
theorem coerceChunkRecommendations_eq
    (hnodup : (findings.map RequirementReviewItem.id).Nodup) :
    coerceChunkRecommendations isFraction raw findings =
      (routes (findings.map RequirementReviewItem.id) (replyEntries isFraction raw)).map
        fun route => (route.1, route.2.1.suggestion) := by
  unfold coerceChunkRecommendations
  simp only [foldl_routeNamed, leftover_eq, fillLeftover_eq hnodup]
  have hopen : (findings.map RequirementReviewItem.id).filter (fun id =>
      id ∉ ((chosen (findings.map RequirementReviewItem.id) (replyEntries isFraction raw)).map
        fun entry => (entry.1.itemId, entry.1.suggestion)).map Prod.fst) =
      unanswered (findings.map RequirementReviewItem.id) (replyEntries isFraction raw) := by
    apply List.filter_congr
    intro id hid
    rw [List.map_map]
    apply decide_eq_decide.mpr
    apply not_congr
    apply Iff.trans mem_chosen_ids
    constructor
    · intro h
      exact ⟨h.left, h.right.right⟩
    · intro h
      exact ⟨h.left, hid, h.right⟩
  rw [hopen, routes, List.map_append, List.map_map, List.map_map, List.zip_map_right]
  rfl

/-- What a finding is given. -/
theorem lookup_coerceChunk (hnodup : (findings.map RequirementReviewItem.id).Nodup) {id : List Nat}
    {suggestion : WriterSuggestion num} :
    (coerceChunkRecommendations isFraction raw findings).lookup id = some suggestion <->
      exists route, route ∈ routes (findings.map RequirementReviewItem.id)
          (replyEntries isFraction raw) ∧
        route.1 = id ∧ route.2.1.suggestion = suggestion := by
  rw [coerceChunkRecommendations_eq hnodup, lookup_eq_some_iff_of_nodup]
  · rw [List.mem_map]
    constructor
    · intro h
      rcases h with ⟨route, hroute, hpair⟩
      rcases Prod.mk.inj hpair with ⟨hid, hsuggestion⟩
      exact ⟨route, hroute, hid, hsuggestion⟩
    · intro h
      rcases h with ⟨route, hroute, hid, hsuggestion⟩
      exact ⟨route, hroute, Prod.ext hid hsuggestion⟩
  · rw [List.map_map]
    exact nodup_routes_ids hnodup

theorem replyEntries_perm {raw' : Json num} (h : (replyList raw).Perm (replyList raw')) :
    (replyEntries isFraction raw).Perm (replyEntries isFraction raw') :=
  (h.filterMap _).filter _

/-- A reply whose entries name findings of their own is routed the same in every order. -/
theorem lookup_perm (hnodup : (findings.map RequirementReviewItem.id).Nodup) {raw' : Json num}
    (hperm : (replyList raw).Perm (replyList raw'))
    (hall : forall entry, entry ∈ replyEntries isFraction raw ->
      Names (findings.map RequirementReviewItem.id) entry)
    (hdistinct : ((replyEntries isFraction raw).map ReplyEntry.itemId).Nodup) (id : List Nat) :
    (coerceChunkRecommendations isFraction raw findings).lookup id =
      (coerceChunkRecommendations isFraction raw' findings).lookup id := by
  have hentries := @replyEntries_perm _ isFraction _ _ hperm
  have hall' : forall entry, entry ∈ replyEntries isFraction raw' ->
      Names (findings.map RequirementReviewItem.id) entry := by
    intro entry hentry
    exact hall entry (hentries.mem_iff.mpr hentry)
  have hdistinct' := (hentries.map ReplyEntry.itemId).nodup_iff.mp hdistinct
  apply Option.ext
  intro suggestion
  rw [lookup_coerceChunk hnodup, lookup_coerceChunk hnodup,
    mem_routes_of_named hall hdistinct, mem_routes_of_named hall' hdistinct']
  simp only [hentries.mem_iff]

end Chunk

end Requirements
end CatFactory
