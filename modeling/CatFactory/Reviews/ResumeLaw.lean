import CatFactory.Reviews.SliceRunLaw

/-!
# A resume covers the rest

Over any sequence of polls the stored reviews only grow, and a resume names the
planned and dispatched slices that none of them completed.  Two slips remain: a
completed review without a report takes the place of one with a report, and a
slice whose name begins like the aggregation entry is never resumed.
-/

namespace CatFactory
namespace Reviews

open Foundation Replies

variable {num : Type}

/-!
## Every poll of a run
-/

def pollStep (step : ReviewerStep) (payload : Option (Json num)) : ReviewerStep :=
  (applySliceReviews step payload).1

/-- The step after the payloads of a run. -/
def afterPolls (step : ReviewerStep) (payloads : List (Option (Json num))) : ReviewerStep :=
  payloads.foldl pollStep step

section Run

variable {step : ReviewerStep} {payloads : List (Option (Json num))}

theorem afterPolls_append (step : ReviewerStep) (front back : List (Option (Json num))) :
    afterPolls step (front ++ back) = afterPolls (afterPolls step front) back :=
  List.foldl_append

theorem reviewer_afterPolls (h : Reviewer step) (payloads : List (Option (Json num))) :
    Reviewer (afterPolls step payloads) := by
  induction payloads generalizing step with
  | nil => exact h
  | cons payload rest ih => exact ih (reviewer_apply h payload)

theorem completed_afterPolls (h : Reviewer step) (payloads : List (Option (Json num)))
    (key : List Nat) :
    Completed (stored (afterPolls step payloads)) key <->
      Completed (stored step) key ∨
        exists payload, payload ∈ payloads ∧ Completed (wellFormed payload) key := by
  induction payloads generalizing step with
  | nil => simp [afterPolls]
  | cons payload rest ih =>
      have hrest := ih (reviewer_apply h payload)
      rw [completed_apply h payload, or_assoc] at hrest
      rw [List.exists_mem_cons_iff]
      exact hrest

theorem mem_keys_afterPolls (h : Reviewer step) (payloads : List (Option (Json num)))
    (key : List Nat) :
    key ∈ keys (stored (afterPolls step payloads)) <->
      key ∈ keys (stored step) ∨
        exists payload, payload ∈ payloads ∧ key ∈ keys (wellFormed payload) := by
  induction payloads generalizing step with
  | nil => simp [afterPolls]
  | cons payload rest ih =>
      have hrest := ih (reviewer_apply h payload)
      rw [mem_keys_apply h payload, or_assoc] at hrest
      rw [List.exists_mem_cons_iff]
      exact hrest

/-- Once a label has a report it keeps one. -/
def KeepsReports (step : ReviewerStep) (payloads : List (Option (Json num))) : Prop :=
  forall earlier middle later, payloads = earlier ++ middle ++ later -> forall key,
    Reported (stored (afterPolls step earlier)) key ->
    Reported (stored (afterPolls step (earlier ++ middle))) key

/-- No payload holds a completed review without a report for a label that has one. -/
def ReportsStand (step : ReviewerStep) (payloads : List (Option (Json num))) : Prop :=
  forall earlier payload later, payloads = earlier ++ payload :: later ->
    forall review, review ∈ coerceSliceReviews payload -> review.status = .completed ->
      Reported (stored (afterPolls step earlier)) review.key -> review.text.isSome = true

theorem keepsReports_iff (h : Reviewer step) :
    KeepsReports step payloads <-> ReportsStand step payloads := by
  constructor
  · intro hkeeps earlier payload later hsplit review hmem hcompleted hreported
    have hnext := hkeeps earlier [payload] later (by rw [hsplit, List.append_assoc]; rfl)
      review.key hreported
    rw [afterPolls_append] at hnext
    exact (reported_apply (reviewer_afterPolls h earlier) payload hreported).mp hnext review hmem
      rfl hcompleted
  · intro hstand earlier middle
    induction middle using List.reverseRecOn with
    | nil =>
        intro later _ key hreported
        rw [List.append_nil]
        exact hreported
    | append_singleton middle payload ih =>
        intro later hsplit key hreported
        have hmiddle := ih (payload :: later) (by rw [hsplit]; simp) key hreported
        rw [← List.append_assoc, afterPolls_append]
        apply (reported_apply (reviewer_afterPolls h _) payload hmiddle).mpr
        intro review hmem hkey hcompleted
        rw [← hkey] at hmiddle
        exact hstand (earlier ++ middle) payload later (by rw [hsplit]; simp) review hmem
          hcompleted hmiddle

end Run

/-!
## The plan of a resume
-/

theorem trim_trim (text : List Nat) : trim (trim text) = trim text := by
  have hdrop : (trim text).dropWhile isSpaceUnit = trim text := by
    rcases trimEnd_starts (text.dropWhile isSpaceUnit) with ⟨tail, htail⟩
    change trim text ++ tail = text.dropWhile isSpaceUnit at htail
    cases htrim : trim text with
    | nil => rfl
    | cons first rest =>
        rw [htrim] at htail
        have hfirst : isSpaceUnit first = false := by
          have hhead := List.head?_dropWhile_not isSpaceUnit text
          rw [← htail] at hhead
          exact hhead
        rw [List.dropWhile_cons_of_neg]
        rw [hfirst]
        exact Bool.false_ne_true
  rw [Replies.trim, hdrop]
  exact trimEnd_trimEnd _

section Plan

variable {toLowerCase : List Nat -> List Nat}

theorem sliceKey_trim (label : List Nat) :
    sliceKey toLowerCase (trim label) = sliceKey toLowerCase label := by
  rw [sliceKey, trim_trim, sliceKey]

/-- What the plan holds after some labels were pushed. -/
structure Pushed (toLowerCase : List Nat -> List Nat) (completed labels : List (List Nat))
    (plan : ResumePlan) : Prop where
  seen : plan.seen = plan.pending.map (sliceKey toLowerCase)
  nodup : plan.seen.Nodup
  named : forall name, name ∈ plan.pending -> exists label, label ∈ labels ∧ name = trim label
  open_iff : forall key, key ∈ plan.seen <->
    key ≠ [] ∧ isAggregationEntry key = false ∧ key ∉ completed ∧
      key ∈ labels.map (sliceKey toLowerCase)

theorem pushed_pushLabel {completed labels : List (List Nat)} {plan : ResumePlan}
    (h : Pushed toLowerCase completed labels plan) (label : List Nat) :
    Pushed toLowerCase completed (labels ++ [label]) (pushLabel toLowerCase completed plan label) := by
  have hmem : forall key, key ∈ (labels ++ [label]).map (sliceKey toLowerCase) <->
      key ∈ labels.map (sliceKey toLowerCase) ∨ key = sliceKey toLowerCase label := by
    intro key
    rw [List.map_append, List.mem_append, List.map_singleton, List.mem_singleton]
  rw [pushLabel]
  split
  · rename_i hskip
    refine ⟨h.seen, h.nodup, ?_, ?_⟩
    · intro name hname
      rcases h.named name hname with ⟨old, hold, heq⟩
      exact ⟨old, List.mem_append_left _ hold, heq⟩
    · intro key
      rw [hmem, h.open_iff]
      constructor
      · intro hkey
        exact ⟨hkey.left, hkey.right.left, hkey.right.right.left, Or.inl hkey.right.right.right⟩
      · intro hkey
        rcases hkey with ⟨hne, haggregate, hopen, hold | hlast⟩
        · exact ⟨hne, haggregate, hopen, hold⟩
        · rw [← hlast] at hskip
          rcases hskip with hempty | haggregate' | hcompleted | hseen
          · exact absurd hempty hne
          · rw [haggregate] at haggregate'
            cases haggregate'
          · exact absurd hcompleted hopen
          · exact (h.open_iff key).mp hseen
  · rename_i hpush
    simp only [not_or, Bool.not_eq_true] at hpush
    rcases hpush with ⟨hne, haggregate, hopen, hfresh⟩
    refine ⟨?_, ?_, ?_, ?_⟩
    · show plan.seen ++ [sliceKey toLowerCase label] =
        (plan.pending ++ [trim label]).map (sliceKey toLowerCase)
      rw [List.map_append, ← h.seen, List.map_singleton, sliceKey_trim]
    · show (plan.seen ++ [sliceKey toLowerCase label]).Nodup
      rw [← List.concat_eq_append]
      exact h.nodup.concat hfresh
    · intro name hname
      rcases List.mem_append.mp hname with hold | hlast
      · rcases h.named name hold with ⟨old, hold, heq⟩
        exact ⟨old, List.mem_append_left _ hold, heq⟩
      · exact ⟨label, List.mem_append_right _ (List.mem_singleton.mpr rfl),
          List.mem_singleton.mp hlast⟩
    · intro key
      show key ∈ plan.seen ++ [sliceKey toLowerCase label] <-> _
      rw [List.mem_append, List.mem_singleton, hmem, h.open_iff]
      constructor
      · intro hkey
        rcases hkey with hold | hlast
        · exact ⟨hold.left, hold.right.left, hold.right.right.left, Or.inl hold.right.right.right⟩
        · rw [hlast]
          exact ⟨hne, haggregate, hopen, Or.inr rfl⟩
      · intro hkey
        rcases hkey with ⟨hne', haggregate', hopen', hold | hlast⟩
        · exact Or.inl ⟨hne', haggregate', hopen', hold⟩
        · exact Or.inr hlast

theorem pushed_foldl (toLowerCase : List Nat -> List Nat) (completed labels : List (List Nat)) :
    Pushed toLowerCase completed labels (labels.foldl (pushLabel toLowerCase completed) {}) := by
  induction labels using List.reverseRecOn with
  | nil =>
      refine ⟨rfl, List.nodup_nil, ?_, ?_⟩
      · intro name hname
        cases hname
      · intro key
        simp
  | append_singleton labels label ih =>
      rw [List.foldl_append]
      exact pushed_pushLabel ih label

/-- The slices that were planned, and those that were dispatched. -/
def slices (reviews : List PrReviewSliceReview) (planned : List (List Nat)) : List (List Nat) :=
  planned ++ reviews.map PrReviewSliceReview.label

/-- A completed review is stored for a slice. -/
def Done (toLowerCase : List Nat -> List Nat) (reviews : List PrReviewSliceReview)
    (key : List Nat) : Prop :=
  exists review, review ∈ reviews ∧ review.status = .completed ∧
    sliceKey toLowerCase review.label = key

/-- What a resume names: each slice once, under its own name, and exactly those that begin with
no mark of an aggregation and are not done. -/
theorem planResumeSlices_spec (toLowerCase : List Nat -> List Nat)
    (reviews : List PrReviewSliceReview) (planned : List (List Nat)) :
    ((planResumeSlices toLowerCase reviews planned).map (sliceKey toLowerCase)).Nodup ∧
      (forall name, name ∈ planResumeSlices toLowerCase reviews planned ->
        exists label, label ∈ slices reviews planned ∧ name = trim label) ∧
      forall key, key ∈ (planResumeSlices toLowerCase reviews planned).map (sliceKey toLowerCase) <->
        key ≠ [] ∧ isAggregationEntry key = false ∧ ¬ Done toLowerCase reviews key ∧
          key ∈ (slices reviews planned).map (sliceKey toLowerCase) := by
  have hdone : forall key, key ∈ ((reviews.filter fun r => r.status = .completed).map fun r =>
      sliceKey toLowerCase r.label) <-> Done toLowerCase reviews key := by
    intro key
    simp only [Done, List.mem_map, List.mem_filter, decide_eq_true_eq, and_assoc]
  have hpushed := pushed_foldl toLowerCase
    ((reviews.filter fun r => r.status = .completed).map fun r => sliceKey toLowerCase r.label)
    (planned ++ (reviews.filter fun r => r.status ≠ .completed).map PrReviewSliceReview.label)
  rw [List.foldl_append] at hpushed
  refine ⟨?_, ?_, ?_⟩
  · have hnodup := hpushed.nodup
    rw [hpushed.seen] at hnodup
    exact hnodup
  · intro name hname
    rcases hpushed.named name hname with ⟨label, hlabel, heq⟩
    refine ⟨label, ?_, heq⟩
    rcases List.mem_append.mp hlabel with hplanned | hdispatched
    · exact List.mem_append_left _ hplanned
    · rcases List.mem_map.mp hdispatched with ⟨review, hmem, hreview⟩
      exact List.mem_append_right _
        (List.mem_map.mpr ⟨review, (List.mem_filter.mp hmem).left, hreview⟩)
  · intro key
    have hopen := hpushed.open_iff key
    rw [hpushed.seen, hdone] at hopen
    apply hopen.trans
    apply and_congr_right
    intro _
    apply and_congr_right
    intro _
    apply and_congr_right
    intro hnot
    rw [slices, List.map_append, List.map_append, List.mem_append, List.mem_append]
    apply or_congr_right
    constructor
    · intro hkey
      rcases List.mem_map.mp hkey with ⟨label, hlabel, hlabelKey⟩
      rcases List.mem_map.mp hlabel with ⟨review, hmem, hreview⟩
      exact List.mem_map.mpr ⟨label,
        List.mem_map.mpr ⟨review, (List.mem_filter.mp hmem).left, hreview⟩, hlabelKey⟩
    · intro hkey
      rcases List.mem_map.mp hkey with ⟨label, hlabel, hlabelKey⟩
      rcases List.mem_map.mp hlabel with ⟨review, hmem, hreview⟩
      have hstatus : review.status ≠ .completed := by
        intro hcompleted
        apply hnot
        refine ⟨review, hmem, hcompleted, ?_⟩
        rw [hreview]
        exact hlabelKey
      exact List.mem_map.mpr ⟨label,
        List.mem_map.mpr ⟨review, List.mem_filter.mpr ⟨hmem, decide_eq_true hstatus⟩, hreview⟩,
        hlabelKey⟩

end Plan

/-!
## The law
-/

/-- The wording that the reviewer's prompt fixes for its last entry. -/
def AGGREGATION_ENTRY : List Nat :=
  stringUnits "aggregate findings"

/-- A resume names, each once, the planned and dispatched slices that are not done. -/
structure CoversRest (toLowerCase : List Nat -> List Nat) (reviews : List PrReviewSliceReview)
    (planned : List (List Nat)) : Prop where
  once : ((planResumeSlices toLowerCase reviews planned).map (sliceKey toLowerCase)).Nodup
  named : forall name, name ∈ planResumeSlices toLowerCase reviews planned ->
    exists label, label ∈ slices reviews planned ∧ name = trim label
  rest : forall key,
    key ∈ (planResumeSlices toLowerCase reviews planned).map (sliceKey toLowerCase) <->
      key ∈ (slices reviews planned).map (sliceKey toLowerCase) ∧ key ≠ [] ∧
        key ≠ AGGREGATION_ENTRY ∧ ¬ Done toLowerCase reviews key

/-- No slice that is still open has a name that begins like the aggregation entry. -/
def NamesApart (toLowerCase : List Nat -> List Nat) (reviews : List PrReviewSliceReview)
    (planned : List (List Nat)) : Prop :=
  forall label, label ∈ slices reviews planned ->
    isAggregationEntry (sliceKey toLowerCase label) = true ->
    sliceKey toLowerCase label = AGGREGATION_ENTRY ∨
      Done toLowerCase reviews (sliceKey toLowerCase label)

theorem coversRest_iff (toLowerCase : List Nat -> List Nat) (reviews : List PrReviewSliceReview)
    (planned : List (List Nat)) :
    CoversRest toLowerCase reviews planned <-> NamesApart toLowerCase reviews planned := by
  have hspec := planResumeSlices_spec toLowerCase reviews planned
  constructor
  · intro h label hlabel haggregate
    by_contra hnot
    rw [not_or] at hnot
    have hne : sliceKey toLowerCase label ≠ [] := by
      intro hempty
      rw [hempty] at haggregate
      exact absurd haggregate (by decide +kernel)
    have hnamed := (h.rest _).mpr
      ⟨List.mem_map.mpr ⟨label, hlabel, rfl⟩, hne, hnot.left, hnot.right⟩
    have hskipped := ((hspec.right.right _).mp hnamed).right.left
    rw [haggregate] at hskipped
    cases hskipped
  · intro h
    refine ⟨hspec.left, hspec.right.left, ?_⟩
    intro key
    rw [hspec.right.right]
    constructor
    · intro hkey
      refine ⟨hkey.right.right.right, hkey.left, ?_, hkey.right.right.left⟩
      intro heq
      have haggregate := hkey.right.left
      rw [heq] at haggregate
      exact absurd haggregate (by decide +kernel)
    · intro hkey
      rcases hkey with ⟨hslice, hne, hother, hopen⟩
      refine ⟨hne, ?_, hopen, hslice⟩
      rw [← Bool.not_eq_true]
      intro haggregate
      rcases List.mem_map.mp hslice with ⟨label, hlabel, heq⟩
      rw [← heq] at haggregate hother hopen
      cases h label hlabel haggregate with
      | inl hentry => exact hother hentry
      | inr hdone => exact hopen hdone

/-- What the polls of a run leave on the step, and what a resume makes of it. -/
structure SliceLaw (toLowerCase : List Nat -> List Nat) (step : ReviewerStep)
    (payloads : List (Option (Json num))) (planned : List (List Nat)) : Prop where
  distinct : Distinct (stored (afterPolls step payloads))
  kept : forall key, key ∈ keys (stored step) ∨
      (exists payload, payload ∈ payloads ∧ key ∈ keys (wellFormed payload)) ->
    key ∈ keys (stored (afterPolls step payloads))
  /-- What is completed stays completed. -/
  completed : forall earlier later, payloads = earlier ++ later -> forall key,
    Completed (stored (afterPolls step earlier)) key ->
    Completed (stored (afterPolls step payloads)) key
  reports : KeepsReports step payloads
  /-- A payload that is polled twice in a row changes nothing the second time. -/
  again : forall earlier payload later, payloads = earlier ++ payload :: later ->
    applySliceReviews (afterPolls step (earlier ++ [payload])) payload =
      (afterPolls step (earlier ++ [payload]), false)
  order : forall payloads', payloads.Perm payloads' -> forall key,
    Completed (stored (afterPolls step payloads)) key <->
      Completed (stored (afterPolls step payloads')) key
  resume : CoversRest toLowerCase (stored (afterPolls step payloads)) planned

/-- Slice reviews survive every run and a resume covers the rest, exactly where no payload takes a
report back and no open slice is named like the aggregation entry. -/
theorem sliceReviews_law (toLowerCase : List Nat -> List Nat) (step : ReviewerStep)
    (payloads : List (Option (Json num))) (planned : List (List Nat)) (h : Reviewer step) :
    SliceLaw toLowerCase step payloads planned <->
      ReportsStand step payloads ∧
        NamesApart toLowerCase (stored (afterPolls step payloads)) planned := by
  constructor
  · intro hlaw
    exact ⟨(keepsReports_iff h).mp hlaw.reports, (coversRest_iff _ _ _).mp hlaw.resume⟩
  · intro hcondition
    constructor
    · exact (reviewer_afterPolls h payloads).distinct
    · intro key hkey
      exact (mem_keys_afterPolls h payloads key).mpr hkey
    · intro earlier later hsplit key hcompleted
      rw [hsplit, afterPolls_append]
      exact (completed_afterPolls (reviewer_afterPolls h earlier) later key).mpr
        (Or.inl hcompleted)
    · exact (keepsReports_iff h).mpr hcondition.left
    · intro earlier payload later _
      rw [afterPolls_append]
      exact applySliceReviews_again (reviewer_afterPolls h earlier) payload
    · intro payloads' hperm key
      rw [completed_afterPolls h, completed_afterPolls h]
      simp only [hperm.mem_iff]
    · exact (coversRest_iff _ _ _).mpr hcondition.right

def reviewEntry (label status : String) (report : Json Nat) : Json Nat :=
  .object [(stringUnits "label", .string (stringUnits label)),
    (stringUnits "status", .string (stringUnits status)), (stringUnits "report", report)]

/-- As the reviewer's dispatch seeds it. -/
def seededStep : ReviewerStep :=
  { prReview := some { sliceReviews := some [] } }

/-- The second container only knows the slice that it was resumed for. -/
def resumedRun : List (Option (Json Nat)) :=
  [some (.array [reviewEntry "api" "completed" (.string (stringUnits "body")),
      reviewEntry "infra" "in_progress" .null]),
    some (.array [reviewEntry "infra" "completed" (.string (stringUnits "found"))])]

theorem sliceReviews_law_resumed :
    SliceLaw (List.map lowerUnit) seededStep resumedRun
      [stringUnits "API", stringUnits "docs", stringUnits "aggregate findings"] := by
  have hreviewer : Reviewer seededStep :=
    { seeded := rfl
      distinct := List.nodup_nil }
  apply (sliceReviews_law (List.map lowerUnit) seededStep resumedRun _ hreviewer).mpr
  constructor
  · intro earlier payload later hsplit review hmem hcompleted hreported
    have hpayload : payload ∈ resumedRun := by
      rw [hsplit]
      exact List.mem_append_right _ List.mem_cons_self
    have hall : forall payload, payload ∈ resumedRun -> forall review,
        review ∈ coerceSliceReviews payload -> review.status = .completed ->
          review.text.isSome = true := by
      decide +kernel
    exact hall payload hpayload review hmem hcompleted
  · intro label hlabel haggregate
    apply Or.inl
    have hall : forall label, label ∈ slices (stored (afterPolls seededStep resumedRun))
        [stringUnits "API", stringUnits "docs", stringUnits "aggregate findings"] ->
        isAggregationEntry (sliceKey (List.map lowerUnit) label) = true ->
        sliceKey (List.map lowerUnit) label = AGGREGATION_ENTRY := by
      decide +kernel
    exact hall label hlabel haggregate

/-- The restarted container's subagent ends without a text. -/
def silencedRun : List (Option (Json Nat)) :=
  [some (.array [reviewEntry "api" "completed" (.string (stringUnits "body"))]),
    some (.array [reviewEntry "api" "completed" .null])]

theorem not_sliceReviews_law :
    ¬ SliceLaw (List.map lowerUnit) seededStep silencedRun [] ∧
      ¬ SliceLaw (List.map lowerUnit) seededStep resumedRun [stringUnits "Aggregate roots"] := by
  constructor
  · intro h
    have hkept := h.reports (silencedRun.take 1) (silencedRun.drop 1) [] rfl (stringUnits "api")
      (by
        refine ⟨⟨stringUnits "api", .completed, some (some (stringUnits "body"))⟩, ?_, ?_, rfl, rfl⟩
        · decide +kernel
        · decide +kernel)
    rcases hkept with ⟨review, hmem, _, _, htext⟩
    have hall : forall review, review ∈ stored (afterPolls seededStep silencedRun) ->
        review.text.isSome = false := by
      decide +kernel
    rw [hall review hmem] at htext
    cases htext
  · intro h
    have hnamed := (h.resume.rest (stringUnits "aggregate roots")).mpr
    have hslice : stringUnits "aggregate roots" ∈
        (slices (stored (afterPolls seededStep resumedRun))
          [stringUnits "Aggregate roots"]).map (sliceKey (List.map lowerUnit)) := by
      decide +kernel
    have hopen : ¬ Done (List.map lowerUnit) (stored (afterPolls seededStep resumedRun))
        (stringUnits "aggregate roots") := by
      intro hdone
      rcases hdone with ⟨review, hmem, _, hkey⟩
      have hall : forall review, review ∈ stored (afterPolls seededStep resumedRun) ->
          sliceKey (List.map lowerUnit) review.label ≠ stringUnits "aggregate roots" := by
        decide +kernel
      exact hall review hmem hkey
    have hmem := hnamed ⟨hslice, by decide +kernel, by decide +kernel, hopen⟩
    exact absurd hmem (by decide +kernel)

end Reviews
end CatFactory
