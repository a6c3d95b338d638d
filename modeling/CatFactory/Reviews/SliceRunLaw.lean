import CatFactory.Reviews.SliceReviewLaw

/-!
# Slice reviews over a run

What the polls of a run leave on the reviewer's step, and which slices a resume
of that run is handed.
-/

namespace CatFactory
namespace Reviews

open Foundation Replies

variable {reviews : List PrReviewSliceReview} {a b : List PrReviewSliceReview} {num : Type}

/-!
## What a payload holds
-/

section Payload

theorem mem_keys {key : List Nat} :
    key ∈ keys reviews <-> exists review, review ∈ reviews ∧ review.key = key :=
  List.mem_map

theorem keys_cons (review : PrReviewSliceReview) (reviews : List PrReviewSliceReview) :
    keys (review :: reviews) = review.key :: keys reviews :=
  rfl

theorem keys_append (front back : List PrReviewSliceReview) :
    keys (front ++ back) = keys front ++ keys back :=
  List.map_append

theorem keys_keepReview (review : PrReviewSliceReview) (reviews : List PrReviewSliceReview) :
    keys (keepReview review reviews) =
      if review.key ∈ keys reviews then keys reviews else keys reviews ++ [review.key] := by
  induction reviews with
  | nil => rfl
  | cons existing reviews ih =>
      rw [keepReview]
      by_cases hkey : existing.key = review.key
      · rw [if_pos hkey]
        have hkeys : keys (if existing.status ≠ .completed ∧ review.status = .completed then
            review :: reviews else existing :: reviews) = review.key :: keys reviews := by
          split
          · rfl
          · rw [← hkey]
            rfl
        rw [hkeys, keys_cons, hkey, if_pos List.mem_cons_self]
      · rw [if_neg hkey, keys_cons, keys_cons, ih]
        simp only [List.mem_cons, Ne.symm hkey, false_or]
        split
        · rfl
        · rfl

theorem completed_keepReview (review : PrReviewSliceReview) (reviews : List PrReviewSliceReview)
    (key : List Nat) :
    Completed (keepReview review reviews) key <->
      Completed reviews key ∨ review.key = key ∧ review.status = .completed := by
  have hcons : forall (first : PrReviewSliceReview) rest, Completed (first :: rest) key <->
      first.key = key ∧ first.status = .completed ∨ Completed rest key := by
    intro first rest
    simp only [Completed, List.exists_mem_cons_iff]
  induction reviews with
  | nil =>
      rw [keepReview, hcons]
      exact Or.comm
  | cons existing reviews ih =>
      rw [keepReview]
      by_cases hkey : existing.key = review.key
      · rw [if_pos hkey]
        by_cases hnew : existing.status ≠ .completed ∧ review.status = .completed
        · rw [if_pos hnew, hcons, hcons]
          tauto
        · rw [if_neg hnew, hcons, ← hkey]
          have hreview : review.status = .completed -> existing.status = .completed := by
            intro hcompleted
            by_contra hopen
            exact hnew ⟨hopen, hcompleted⟩
          tauto
      · rw [if_neg hkey, hcons, hcons]
        exact (or_congr_right ih).trans or_assoc.symm

theorem distinct_keepReview (h : Distinct reviews)
    (review : PrReviewSliceReview) : Distinct (keepReview review reviews) := by
  rw [Distinct, keys_keepReview]
  split
  · exact h
  · rename_i hmem
    rw [← List.concat_eq_append]
    exact List.Nodup.concat hmem h

theorem coerceSliceReviews_spec (raw : Option (Json num)) :
    Distinct (coerceSliceReviews raw) ∧
      (forall key, key ∈ keys (coerceSliceReviews raw) <-> key ∈ keys (wellFormed raw)) ∧
      forall key, Completed (coerceSliceReviews raw) key <-> Completed (wellFormed raw) key := by
  rw [coerceSliceReviews]
  induction wellFormed raw using List.reverseRecOn with
  | nil => exact ⟨List.nodup_nil, fun _ => Iff.rfl, fun _ => Iff.rfl⟩
  | append_singleton reviews last ih =>
      rcases ih with ⟨hdistinct, hkeys, hcompleted⟩
      rw [List.foldl_append, List.foldl_cons, List.foldl_nil]
      refine ⟨distinct_keepReview hdistinct last, ?_, ?_⟩
      · intro key
        rw [keys_keepReview, keys_append, List.mem_append]
        change _ <-> _ ∨ key ∈ [last.key]
        rw [List.mem_singleton]
        have hold := hkeys key
        split
        · rename_i hlast
          constructor
          · intro h
            exact Or.inl (hold.mp h)
          · intro h
            cases h with
            | inl h => exact hold.mpr h
            | inr h => rw [h]; exact hlast
        · rw [List.mem_append, List.mem_singleton, hold]
      · intro key
        rw [completed_keepReview, hcompleted]
        simp only [Completed, List.mem_append, List.mem_singleton, or_and_right, exists_or,
          exists_eq_left]

end Payload

/-!
## One poll
-/

section Poll

/-- What is compared of two reviews. -/
def content (review : PrReviewSliceReview) : List Nat × SliceStatus × Option (List Nat) :=
  (review.label, review.status, review.text)

theorem sameSliceReviews_iff :
    sameSliceReviews a b = true <-> a.map content = b.map content := by
  rw [sameSliceReviews, Bool.and_eq_true, decide_eq_true_eq]
  induction a generalizing b with
  | nil =>
      cases b with
      | nil => simp
      | cons right b => simp
  | cons left a ih =>
      cases b with
      | nil => simp
      | cons right b =>
          have hrest := @ih b
          simp only [List.length_cons, Nat.add_right_cancel_iff, List.zip_cons_cons, List.all_cons,
            Bool.and_eq_true, decide_eq_true_eq, List.map_cons, List.cons.injEq] at hrest ⊢
          rw [← hrest, content, content, Prod.mk.injEq, Prod.mk.injEq]
          tauto

theorem exists_mem_iff_of_content (h : a.map content = b.map content)
    (P : List Nat × SliceStatus × Option (List Nat) -> Prop) :
    (exists review, review ∈ a ∧ P (content review)) <->
      exists review, review ∈ b ∧ P (content review) := by
  have hmap : forall reviews : List PrReviewSliceReview,
      (exists review, review ∈ reviews ∧ P (content review)) <->
        exists c, c ∈ reviews.map content ∧ P c := by
    intro reviews
    simp only [List.mem_map, exists_exists_and_eq_and]
  rw [hmap, hmap, h]

theorem keys_of_content (h : a.map content = b.map content) :
    keys a = keys b := by
  have hkeys : forall reviews : List PrReviewSliceReview,
      keys reviews = (reviews.map content).map fun c => Replies.trim c.1 := by
    intro reviews
    rw [List.map_map]
    rfl
  rw [hkeys, hkeys, h]

theorem completed_of_content (h : a.map content = b.map content)
    (key : List Nat) : Completed a key <-> Completed b key :=
  exists_mem_iff_of_content h fun c => Replies.trim c.1 = key ∧ c.2.1 = .completed

theorem reported_of_content (h : a.map content = b.map content)
    (key : List Nat) : Reported a key <-> Reported b key :=
  exists_mem_iff_of_content h fun c =>
    trim c.1 = key ∧ c.2.1 = .completed ∧ c.2.2.isSome = true

/-- The reviews on a step. -/
def stored (step : ReviewerStep) : List PrReviewSliceReview :=
  (step.prReview.bind SliceReviewState.sliceReviews).getD []

/-- A pr-reviewer step whose stored reviews have one entry for each label. -/
structure Reviewer (step : ReviewerStep) : Prop where
  seeded : step.prReview.isSome = true
  distinct : Distinct (stored step)

variable {step : ReviewerStep}

theorem content_stored_apply (h : Reviewer step) (raw : Option (Json num)) :
    (stored (applySliceReviews step raw).1).map content =
      (mergeSliceReviews (stored step) (coerceSliceReviews raw)).map content := by
  rcases step with ⟨_ | prReview⟩
  · cases h.seeded
  · rw [applySliceReviews]
    dsimp only
    split
    · rename_i hnone
      rw [hnone, mergeSliceReviews_eq h.distinct, List.foldl_nil, map_snd_asMap]
    · split
      · rename_i hsame
        exact sameSliceReviews_iff.mp hsame
      · rfl

theorem reviewer_apply (h : Reviewer step) (raw : Option (Json num)) :
    Reviewer (applySliceReviews step raw).1 := by
  constructor
  · rcases step with ⟨_ | prReview⟩
    · cases h.seeded
    · rw [applySliceReviews]
      dsimp only
      split
      · rfl
      · split <;> rfl
  · rw [Distinct, keys_of_content (content_stored_apply h raw)]
    exact distinct_mergeSliceReviews h.distinct

/-- A payload that is folded a second time changes nothing. -/
theorem applySliceReviews_again (h : Reviewer step) (raw : Option (Json num)) :
    applySliceReviews (applySliceReviews step raw).1 raw = ((applySliceReviews step raw).1, false) := by
  rcases step with ⟨_ | prReview⟩
  · cases h.seeded
  · by_cases hnone : coerceSliceReviews raw = []
    · simp [applySliceReviews, hnone]
    · cases hsame : sameSliceReviews (prReview.sliceReviews.getD [])
          (mergeSliceReviews (prReview.sliceReviews.getD []) (coerceSliceReviews raw)) with
      | true => simp [applySliceReviews, hnone, hsame]
      | false =>
          have hagain := mergeSliceReviews_again h.distinct (coerceSliceReviews_spec raw).left
          change mergeSliceReviews (mergeSliceReviews (prReview.sliceReviews.getD [])
            (coerceSliceReviews raw)) (coerceSliceReviews raw) =
              mergeSliceReviews (prReview.sliceReviews.getD []) (coerceSliceReviews raw) at hagain
          have hself : forall reviews : List PrReviewSliceReview,
              sameSliceReviews reviews reviews = true := by
            intro reviews
            exact sameSliceReviews_iff.mpr rfl
          simp [applySliceReviews, hnone, hsame, hagain, hself]

theorem completed_iff_lookup (h : Distinct reviews) (key : List Nat) :
    Completed reviews key <->
      ((asMap reviews).lookup key).any (fun review => review.status = .completed) = true := by
  rw [Option.any_eq_true]
  constructor
  · intro hc
    rcases hc with ⟨review, hmem, hkey, hcompleted⟩
    exact ⟨review, (lookup_asMap h).mpr ⟨hmem, hkey⟩, decide_eq_true hcompleted⟩
  · intro hc
    rcases hc with ⟨review, hlookup, hcompleted⟩
    rcases (lookup_asMap h).mp hlookup with ⟨hmem, hkey⟩
    exact ⟨review, hmem, hkey, of_decide_eq_true hcompleted⟩

theorem completed_mergeSliceReviews {existing incoming : List PrReviewSliceReview}
    (h : Distinct existing) (hincoming : Distinct incoming) (key : List Nat) :
    Completed (mergeSliceReviews existing incoming) key <->
      Completed existing key ∨ Completed incoming key := by
  rw [completed_iff_lookup (distinct_mergeSliceReviews h), completed_iff_lookup h,
    completed_iff_lookup hincoming, lookup_mergeSliceReviews h hincoming]
  cases (asMap incoming).lookup key with
  | none => simp [overlay]
  | some review =>
      rw [overlay, laidOver]
      split
      · rename_i hover
        simp [hover.left]
      · rename_i hover
        rw [not_and_or, not_not] at hover
        simp only [Option.any_some, decide_eq_true_eq]
        tauto

theorem mem_keys_iff_lookup (h : Distinct reviews) (key : List Nat) :
    key ∈ keys reviews <-> exists review, (asMap reviews).lookup key = some review := by
  rw [mem_keys]
  constructor
  · intro hk
    rcases hk with ⟨review, hmem⟩
    exact ⟨review, (lookup_asMap h).mpr hmem⟩
  · intro hk
    rcases hk with ⟨review, hlookup⟩
    exact ⟨review, (lookup_asMap h).mp hlookup⟩

theorem mem_keys_mergeSliceReviews {existing incoming : List PrReviewSliceReview}
    (h : Distinct existing) (hincoming : Distinct incoming) (key : List Nat) :
    key ∈ keys (mergeSliceReviews existing incoming) <->
      key ∈ keys existing ∨ key ∈ keys incoming := by
  rw [mem_keys_iff_lookup (distinct_mergeSliceReviews h), mem_keys_iff_lookup h,
    mem_keys_iff_lookup hincoming, lookup_mergeSliceReviews h hincoming]
  cases (asMap incoming).lookup key with
  | none => simp [overlay]
  | some review =>
      rw [overlay, laidOver]
      split
      · rename_i hover
        rcases Option.any_eq_true _ _ |>.mp hover.left with ⟨prior, hprior, _⟩
        simp [hprior]
      · simp

theorem reported_iff_lookup (h : Distinct reviews) (key : List Nat) :
    Reported reviews key <-> exists review, (asMap reviews).lookup key = some review ∧
      review.status = .completed ∧ review.text.isSome = true := by
  constructor
  · intro hr
    rcases hr with ⟨review, hmem, hkey, hrest⟩
    exact ⟨review, (lookup_asMap h).mpr ⟨hmem, hkey⟩, hrest⟩
  · intro hr
    rcases hr with ⟨review, hlookup, hrest⟩
    rcases (lookup_asMap h).mp hlookup with ⟨hmem, hkey⟩
    exact ⟨review, hmem, hkey, hrest⟩

/-- A reported label stays reported unless the payload has a completed review of it without a
report. -/
theorem reported_mergeSliceReviews {existing incoming : List PrReviewSliceReview}
    (h : Distinct existing) (hincoming : Distinct incoming) {key : List Nat}
    (hr : Reported existing key) :
    Reported (mergeSliceReviews existing incoming) key <->
      forall review, review ∈ incoming -> review.key = key -> review.status = .completed ->
        review.text.isSome = true := by
  rcases (reported_iff_lookup h key).mp hr with ⟨prior, hprior, hcompleted, htext⟩
  rw [reported_iff_lookup (distinct_mergeSliceReviews h), lookup_mergeSliceReviews h hincoming,
    hprior]
  cases hlookup : (asMap incoming).lookup key with
  | none =>
      constructor
      · intro _ review hmem hkey
        rw [(lookup_asMap hincoming).mpr ⟨hmem, hkey⟩] at hlookup
        cases hlookup
      · intro _
        exact ⟨prior, rfl, hcompleted, htext⟩
  | some latest =>
      have hlatest := (lookup_asMap hincoming).mp hlookup
      have honly : forall review, review ∈ incoming -> review.key = key -> review = latest := by
        intro review hmem hkey
        rw [(lookup_asMap hincoming).mpr ⟨hmem, hkey⟩] at hlookup
        exact Option.some.inj hlookup
      rw [overlay, laidOver]
      by_cases hdone : latest.status = .completed
      · rw [if_neg fun hover => hover.right hdone]
        constructor
        · intro hreported review hmem hkey _
          rcases hreported with ⟨found, hfound, _, hfoundText⟩
          rw [honly review hmem hkey, Option.some.inj hfound]
          exact hfoundText
        · intro hall
          exact ⟨latest, rfl, hdone, hall latest hlatest.left hlatest.right hdone⟩
      · rw [if_pos ⟨decide_eq_true hcompleted, hdone⟩]
        constructor
        · intro _ review hmem hkey hreview
          rw [honly review hmem hkey] at hreview
          exact absurd hreview hdone
        · intro _
          exact ⟨prior, rfl, hcompleted, htext⟩

theorem completed_apply (h : Reviewer step) (raw : Option (Json num)) (key : List Nat) :
    Completed (stored (applySliceReviews step raw).1) key <->
      Completed (stored step) key ∨ Completed (wellFormed raw) key := by
  have hspec := coerceSliceReviews_spec raw
  rw [completed_of_content (content_stored_apply h raw),
    completed_mergeSliceReviews h.distinct hspec.left, hspec.right.right]

theorem mem_keys_apply (h : Reviewer step) (raw : Option (Json num)) (key : List Nat) :
    key ∈ keys (stored (applySliceReviews step raw).1) <->
      key ∈ keys (stored step) ∨ key ∈ keys (wellFormed raw) := by
  have hspec := coerceSliceReviews_spec raw
  rw [keys_of_content (content_stored_apply h raw),
    mem_keys_mergeSliceReviews h.distinct hspec.left, hspec.right.left]

theorem reported_apply (h : Reviewer step) (raw : Option (Json num)) {key : List Nat}
    (hr : Reported (stored step) key) :
    Reported (stored (applySliceReviews step raw).1) key <->
      forall review, review ∈ coerceSliceReviews raw -> review.key = key ->
        review.status = .completed -> review.text.isSome = true := by
  rw [reported_of_content (content_stored_apply h raw)]
  exact reported_mergeSliceReviews h.distinct (coerceSliceReviews_spec raw).left hr

end Poll

end Reviews
end CatFactory
