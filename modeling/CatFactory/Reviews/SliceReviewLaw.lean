import CatFactory.Reviews.SliceReviews
import Mathlib.Data.List.Induction
import Mathlib.Data.List.Perm.Basic

/-!
# What slice reviews become

The stored reviews are a map from trimmed labels.  A payload is laid over it
label by label, so that each label's state is told by the payloads alone, and
laying a payload over twice is laying it over once.
-/

namespace CatFactory
namespace Reviews

open Foundation Replies

variable {num : Type}

/-!
## Lists of reviews as maps
-/

def keys (reviews : List PrReviewSliceReview) : List (List Nat) :=
  reviews.map PrReviewSliceReview.key

/-- One review for each trimmed label. -/
def Distinct (reviews : List PrReviewSliceReview) : Prop :=
  (keys reviews).Nodup

def Completed (reviews : List PrReviewSliceReview) (key : List Nat) : Prop :=
  exists review, review ∈ reviews ∧ review.key = key ∧ review.status = .completed

/-- Completed with a report. -/
def Reported (reviews : List PrReviewSliceReview) (key : List Nat) : Prop :=
  exists review, review ∈ reviews ∧ review.key = key ∧ review.status = .completed ∧
    review.text.isSome = true

def asMap (reviews : List PrReviewSliceReview) : List (List Nat × PrReviewSliceReview) :=
  reviews.map fun review => (review.key, review)

theorem asMap_cons (review : PrReviewSliceReview) (reviews : List PrReviewSliceReview) :
    asMap (review :: reviews) = (review.key, review) :: asMap reviews :=
  rfl

theorem map_fst_asMap (reviews : List PrReviewSliceReview) :
    (asMap reviews).map Prod.fst = keys reviews := by
  rw [asMap, List.map_map]
  rfl

theorem map_snd_asMap (reviews : List PrReviewSliceReview) :
    (asMap reviews).map Prod.snd = reviews := by
  rw [asMap, List.map_map]
  exact List.map_id reviews

theorem lookup_asMap {reviews : List PrReviewSliceReview} (h : Distinct reviews) {key : List Nat}
    {review : PrReviewSliceReview} :
    (asMap reviews).lookup key = some review <-> review ∈ reviews ∧ review.key = key := by
  rw [lookup_eq_some_iff_of_nodup (by rw [map_fst_asMap]; exact h), asMap, List.mem_map]
  constructor
  · intro hmem
    rcases hmem with ⟨other, hother, hpair⟩
    rcases Prod.mk.inj hpair with ⟨hkey, hreview⟩
    rw [hreview] at hother hkey
    exact ⟨hother, hkey⟩
  · intro hmem
    exact ⟨review, hmem.left, by rw [hmem.right]⟩

/-- Every review stands under its own label. -/
def Keyed (byLabel : List (List Nat × PrReviewSliceReview)) : Prop :=
  forall pair, pair ∈ byLabel -> pair.1 = pair.2.key

theorem asMap_of_keyed {byLabel : List (List Nat × PrReviewSliceReview)} (h : Keyed byLabel) :
    asMap (byLabel.map Prod.snd) = byLabel := by
  rw [asMap, List.map_map]
  apply (List.map_congr_left _).trans (List.map_id byLabel)
  intro pair hpair
  exact Prod.ext (h pair hpair).symm rfl

/-- The map that a merge starts from. -/
theorem foldl_upsert_asMap {reviews : List PrReviewSliceReview} (h : Distinct reviews) :
    reviews.foldl (fun byLabel review => upsert review.key (fun _ => review) byLabel) [] =
      asMap reviews := by
  induction reviews using List.reverseRecOn with
  | nil => rfl
  | append_singleton reviews last ih =>
      rw [Distinct, keys, List.map_append, List.nodup_append] at h
      have hfresh : last.key ∉ (asMap reviews).map Prod.fst := by
        rw [map_fst_asMap]
        intro hmem
        exact h.right.right _ hmem _ List.mem_cons_self rfl
      rw [List.foldl_append, ih h.left, List.foldl_cons, List.foldl_nil, upsert_fresh _ hfresh,
        asMap, asMap, List.map_append]
      rfl

/-!
## One review over another
-/

/-- The review of a label after a payload that holds one for it. -/
def laidOver (prior : Option PrReviewSliceReview) (review : PrReviewSliceReview) :
    Option PrReviewSliceReview :=
  if prior.any (fun prior => prior.status = .completed) ∧ review.status ≠ .completed then prior
  else some review

def overlay (prior : Option PrReviewSliceReview) :
    Option PrReviewSliceReview -> Option PrReviewSliceReview
  | none => prior
  | some review => laidOver prior review

section Merge

variable {byLabel : List (List Nat × PrReviewSliceReview)}

theorem lookup_mergeReview (review : PrReviewSliceReview) (key : List Nat) :
    (mergeReview byLabel review).lookup key =
      if review.key = key then laidOver (byLabel.lookup key) review else byLabel.lookup key := by
  rw [mergeReview]
  by_cases hkey : review.key = key
  · rw [if_pos hkey, laidOver, ← hkey]
    split
    · rfl
    · rw [lookup_upsert, if_pos rfl]
  · rw [if_neg hkey]
    split
    · rfl
    · rw [lookup_upsert, if_neg hkey]

theorem keyed_mergeReview (h : Keyed byLabel) (review : PrReviewSliceReview) :
    Keyed (mergeReview byLabel review) := by
  rw [mergeReview]
  split
  · exact h
  · intro pair hpair
    rcases mem_upsert hpair with hold | ⟨_, hnew⟩
    · exact h pair hold
    · rw [hnew]

theorem nodup_mergeReview (h : (byLabel.map Prod.fst).Nodup) (review : PrReviewSliceReview) :
    ((mergeReview byLabel review).map Prod.fst).Nodup := by
  rw [mergeReview]
  split
  · exact h
  · exact nodup_keys_upsert _ _ h

theorem keyed_foldl_mergeReview (h : Keyed byLabel) (incoming : List PrReviewSliceReview) :
    Keyed (incoming.foldl mergeReview byLabel) := by
  induction incoming generalizing byLabel with
  | nil => exact h
  | cons review rest ih => exact ih (keyed_mergeReview h review)

theorem nodup_foldl_mergeReview (h : (byLabel.map Prod.fst).Nodup)
    (incoming : List PrReviewSliceReview) :
    ((incoming.foldl mergeReview byLabel).map Prod.fst).Nodup := by
  induction incoming generalizing byLabel with
  | nil => exact h
  | cons review rest ih => exact ih (nodup_mergeReview h review)

/-- A payload is laid over the map label by label. -/
theorem lookup_foldl_mergeReview {incoming : List PrReviewSliceReview} (h : Distinct incoming)
    (key : List Nat) :
    (incoming.foldl mergeReview byLabel).lookup key =
      overlay (byLabel.lookup key) ((asMap incoming).lookup key) := by
  induction incoming generalizing byLabel with
  | nil => rfl
  | cons review rest ih =>
      rw [Distinct, keys, List.map_cons, List.nodup_cons] at h
      rw [List.foldl_cons, ih h.right, lookup_mergeReview, asMap_cons, lookup_cons_eq]
      by_cases hkey : review.key = key
      · have hnone : (asMap rest).lookup key = none := by
          apply List.lookup_eq_none_iff.mpr
          intro pair hpair
          apply bne_iff_ne.mpr
          intro heq
          apply h.left
          have hmem : pair.1 ∈ (asMap rest).map Prod.fst := List.mem_map.mpr ⟨pair, hpair, rfl⟩
          rw [map_fst_asMap, ← heq, ← hkey] at hmem
          exact hmem
        rw [if_pos hkey, if_pos hkey, hnone]
        rfl
      · rw [if_neg hkey, if_neg hkey]

theorem mergeReview_eq_self {review : PrReviewSliceReview} {prior : Option PrReviewSliceReview}
    (h : byLabel.lookup review.key = laidOver prior review) : mergeReview byLabel review = byLabel := by
  rw [mergeReview]
  split
  · rfl
  · rename_i hnot
    apply upsert_eq_self rfl
    rw [h, laidOver]
    split
    · rename_i hover
      rw [laidOver, if_pos hover] at h
      rw [h] at hnot
      exact absurd hover hnot
    · rfl

variable {existing incoming : List PrReviewSliceReview}

theorem mergeSliceReviews_eq (h : Distinct existing) :
    mergeSliceReviews existing incoming =
      (incoming.foldl mergeReview (asMap existing)).map Prod.snd := by
  rw [← foldl_upsert_asMap h]
  rfl

theorem keyed_asMap (reviews : List PrReviewSliceReview) : Keyed (asMap reviews) := by
  intro pair hpair
  rcases List.mem_map.mp hpair with ⟨review, _, heq⟩
  rw [← heq]

theorem asMap_mergeSliceReviews (h : Distinct existing) :
    asMap (mergeSliceReviews existing incoming) = incoming.foldl mergeReview (asMap existing) := by
  rw [mergeSliceReviews_eq h]
  exact asMap_of_keyed (keyed_foldl_mergeReview (keyed_asMap existing) incoming)

theorem distinct_mergeSliceReviews (h : Distinct existing) :
    Distinct (mergeSliceReviews existing incoming) := by
  rw [Distinct, ← map_fst_asMap, asMap_mergeSliceReviews h]
  apply nodup_foldl_mergeReview
  rw [map_fst_asMap]
  exact h

theorem lookup_mergeSliceReviews (h : Distinct existing) (hincoming : Distinct incoming)
    (key : List Nat) :
    (asMap (mergeSliceReviews existing incoming)).lookup key =
      overlay ((asMap existing).lookup key) ((asMap incoming).lookup key) := by
  rw [asMap_mergeSliceReviews h, lookup_foldl_mergeReview hincoming]

/-- Laying a payload over twice is laying it over once. -/
theorem mergeSliceReviews_again (h : Distinct existing) (hincoming : Distinct incoming) :
    mergeSliceReviews (mergeSliceReviews existing incoming) incoming =
      mergeSliceReviews existing incoming := by
  have hfixed : forall rest : List PrReviewSliceReview, (forall review, review ∈ rest -> review ∈ incoming) ->
      rest.foldl mergeReview (incoming.foldl mergeReview (asMap existing)) =
        incoming.foldl mergeReview (asMap existing) := by
    intro rest hrest
    induction rest with
    | nil => rfl
    | cons review rest ih =>
        have hmem := hrest review List.mem_cons_self
        have hlookup : (incoming.foldl mergeReview (asMap existing)).lookup review.key =
            laidOver ((asMap existing).lookup review.key) review := by
          rw [lookup_foldl_mergeReview hincoming, (lookup_asMap hincoming).mpr ⟨hmem, rfl⟩]
          rfl
        rw [List.foldl_cons, mergeReview_eq_self hlookup]
        exact ih fun other hother => hrest other (List.mem_cons_of_mem _ hother)
  rw [mergeSliceReviews_eq (distinct_mergeSliceReviews h), asMap_mergeSliceReviews h,
    hfixed incoming fun _ hmem => hmem, ← mergeSliceReviews_eq h]

end Merge

end Reviews
end CatFactory
