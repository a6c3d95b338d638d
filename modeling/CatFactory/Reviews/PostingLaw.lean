import Mathlib.Data.List.Nodup
import CatFactory.Reviews.Posting

/-!
# Nothing posted twice

Whatever is selected, and whatever the host answers: the summary lands at most
once and no finding has two inline comments.  A pass that ends the review has
delivered what was selected, unless it held back the body of a finding that no
body lists.
-/

namespace CatFactory
namespace Reviews

open Foundation

/-!
## Delivery
-/

/-- A body of the pull request lists the finding. -/
def Listed (pr : PullRequest) (finding : PrReviewFinding) : Prop :=
  exists parts staleHead unanchored, parts ∈ pr.bodies ∧
    BodyPart.findings staleHead unanchored ∈ parts ∧ finding ∈ unanchored

/-- The pull request has an inline comment for the finding, or a body that lists
it. -/
def Delivered (pr : PullRequest) (finding : PrReviewFinding) : Prop :=
  (exists comment, (finding.id, comment) ∈ pr.comments ∧
    comment.body = renderFindingBody finding) ∨ Listed pr finding

/-- The text of the finding is in an inline comment or in a body. -/
def TextDelivered (pr : PullRequest) (finding : PrReviewFinding) : Prop :=
  (exists posted, posted ∈ pr.comments ∧
    (renderFindingBody finding).toList <:+: posted.2.body.toList) ∨
  exists parts, parts ∈ pr.bodies ∧
    (renderFindingBody finding).toList <:+: (bodyText parts).toList

instance (pr : PullRequest) (finding : PrReviewFinding) :
    Decidable (TextDelivered pr finding) :=
  inferInstanceAs (Decidable (_ ∨ _))

theorem infix_renderUnanchored (finding : PrReviewFinding) :
    (renderFindingBody finding).toList <:+: (renderUnanchored finding).toList := by
  unfold renderUnanchored
  simp only [String.toList_append]
  exact List.IsSuffix.isInfix (List.suffix_append _ _)

theorem text_infix_body {text : String} {part : BodyPart} {parts : List BodyPart}
    (hpart : part ∈ parts) (htext : text ∈ part.texts) :
    text.toList <:+: (bodyText parts).toList :=
  infix_intercalate (List.mem_flatMap.mpr ⟨part, hpart, htext⟩)

theorem Delivered.text {pr : PullRequest} {finding : PrReviewFinding}
    (h : Delivered pr finding) : TextDelivered pr finding := by
  rcases h with ⟨comment, hposted, hbody⟩ | ⟨parts, staleHead, unanchored, hparts, hpart, hmem⟩
  · left
    refine ⟨_, hposted, ?_⟩
    exact hbody ▸ List.infix_rfl
  · right
    refine ⟨parts, hparts, ?_⟩
    have hline : (renderUnanchored finding).toList <:+:
        (String.intercalate "\n\n" (unanchored.map renderUnanchored)).toList :=
      infix_intercalate (List.mem_map_of_mem hmem)
    have hjoined : (String.intercalate "\n\n" (unanchored.map renderUnanchored)).toList <:+:
        (bodyText parts).toList := by
      apply text_infix_body hpart
      simp [BodyPart.texts]
    exact ((infix_renderUnanchored finding).trans hline).trans hjoined

theorem Listed.mono {pr pr' : PullRequest} {finding : PrReviewFinding}
    (h : Listed pr finding) (hbodies : forall parts, parts ∈ pr.bodies -> parts ∈ pr'.bodies) :
    Listed pr' finding := by
  rcases h with ⟨parts, staleHead, unanchored, hparts, hrest⟩
  exact ⟨parts, staleHead, unanchored, hbodies parts hparts, hrest⟩

/-- A body that lists findings is not empty. -/
theorem bodyText_ne_empty {staleHead : Bool} {unanchored : List PrReviewFinding}
    {parts : List BodyPart} (h : BodyPart.findings staleHead unanchored ∈ parts) :
    bodyText parts ≠ "" := by
  intro hempty
  have hheading : (findingsHeading staleHead).toList <:+: (bodyText parts).toList := by
    apply text_infix_body h
    simp [BodyPart.texts]
  rw [hempty] at hheading
  have hnil : findingsHeading staleHead = "" :=
    String.toList_eq_nil_iff.mp (List.eq_nil_of_infix_nil hheading)
  cases staleHead with
  | true => exact absurd hnil (by decide +kernel)
  | false => exact absurd hnil (by decide +kernel)

/-!
## Outcomes
-/

section Outcomes

variable {item other : Type} {outcomes : List ReviewCommentOutcome}

theorem postedOf_map (f : item -> other) (items : List item) :
    postedOf outcomes (items.map f) = (postedOf outcomes items).map f := by
  unfold postedOf
  simp only [List.zipIdx_map, List.filter_map, List.map_map]
  rfl

theorem postedOf_sublist (items : List item) : List.Sublist (postedOf outcomes items) items := by
  have hsub : List.Sublist (postedOf outcomes items) (items.zipIdx.map Prod.fst) :=
    List.filter_sublist.map Prod.fst
  simpa using hsub

/-- Where nothing failed, everything posted. -/
theorem mem_postedOf {items : List item} {x : item} (hx : x ∈ items)
    (h : items.zipIdx.filter (fun y => !isPosted outcomes y.2) = []) :
    x ∈ postedOf outcomes items := by
  rcases List.mem_iff_getElem?.mp hx with ⟨i, hi⟩
  have hmem : (x, i) ∈ items.zipIdx := by
    simpa [List.mem_zipIdx_iff_getElem?] using hi
  have hposted := List.filter_eq_nil_iff.mp h (x, i) hmem
  refine List.mem_map.mpr ⟨(x, i), List.mem_filter.mpr ⟨hmem, ?_⟩, rfl⟩
  simpa using hposted

end Outcomes

/-!
## What a pass does
-/

/-- A review before its first pass; the ids of the findings are minted apart. -/
structure ParkedReview where
  review : PrReviewStepState
  parked : review.status = PrReviewStatus.awaitingSelection
  unposted : review.postedFindingIds = []
  bodyUnposted : review.postedBody = false
  minted : (review.findings.map PrReviewFinding.id).Nodup

def BodyPart.isSummary : BodyPart -> Bool
  | .summary _ => true
  | _ => false

/-- The bodies that carry the reviewer's summary. -/
def summaries (pr : PullRequest) : List (List BodyPart) :=
  pr.bodies.filter fun parts => parts.any BodyPart.isSummary

/-- The pass meets a moved branch. -/
def meetsStaleHead (s : Posting) (pass : PostPass) : Bool :=
  detectStaleHead s.review pass.currentHeadSha

/-- What the pass would post: selected, live, and not posted inline before. -/
def passFindings (s : Posting) (pass : PostPass) : List PrReviewFinding :=
  toPost { s.review with selectedFindingIds := selectable s.review pass.findingIds }

/-- Where a body has landed and this pass sends none, each finding it would post
anchors to the diff or is listed in a body already. -/
def KeepsFolded (s : Posting) (pass : PostPass) : Prop :=
  s.review.postedBody = true ->
  (meetsStaleHead s pass = true ->
    forall f, f ∈ passFindings s pass -> carriesLocation f = false) ->
  forall f, f ∈ passFindings s pass ->
    isAnchorable (meetsStaleHead s pass) pass.commentable f = true ∨ Listed s.pr f

/-- What holds of the marks after any number of passes. -/
structure PostInv (findings : List PrReviewFinding) (s : Posting) : Prop where
  findings_same : s.review.findings = findings
  minted : (findings.map PrReviewFinding.id).Nodup
  marked : forall posted, posted ∈ s.pr.comments ->
    posted.1 ∈ s.review.postedFindingIds
  backed : forall f, f ∈ findings -> f.id ∈ s.review.postedFindingIds ->
    exists comment, (f.id, comment) ∈ s.pr.comments ∧ comment.body = renderFindingBody f
  once : (s.pr.comments.map Prod.fst).Nodup
  silent : s.review.postedBody = false -> s.pr.bodies = []
  oneSummary : (summaries s.pr).length ≤ 1

theorem postInv_start (start : ParkedReview) :
    PostInv start.review.findings { review := start.review } where
  findings_same := rfl
  minted := start.minted
  marked := by
    intro posted hposted
    cases hposted
  backed := by
    intro f _ hf
    rw [start.unposted] at hf
    cases hf
  once := List.nodup_nil
  silent := fun _ => rfl
  oneSummary := Nat.zero_le 1

section Pass

variable {findings : List PrReviewFinding} {pass : PostPass} {s : Posting}

def passBuilt (pass : PostPass) (s : Posting) : BuiltPrReviewPost :=
  buildPrReviewPost (toPost s.review) s.review.summary pass.commentable
    (meetsStaleHead s pass) s.review.postedBody

/-- The findings of the pass that anchor to the diff. -/
def anchored (pass : PostPass) (s : Posting) : List PrReviewFinding :=
  (toPost s.review).filter fun f => isAnchorable (meetsStaleHead s pass) pass.commentable f

/-- The body is held back. -/
def suppresses (pass : PostPass) (s : Posting) : Bool :=
  s.review.postedBody &&
    !(meetsStaleHead s pass && !(passBuilt pass s).foldedFindingIds.isEmpty)

def passInput (pass : PostPass) (s : Posting) : CreateReviewInput :=
  if suppresses pass s then { (passBuilt pass s).input with body := "" }
  else (passBuilt pass s).input

def passResult (pass : PostPass) (s : Posting) : CreateReviewResult :=
  createReview pass.call (passInput pass s)

/-- The findings whose comment the pass posted. -/
def freshlyPosted (pass : PostPass) (s : Posting) : List PrReviewFinding :=
  postedOf (passResult pass s).comments (anchored pass s)

theorem passInput_comments : (passInput pass s).comments = (anchored pass s).map inlineComment := by
  unfold passInput
  split
  · rfl
  · rfl

theorem post_postedFindingIds : (post pass s).review.postedFindingIds =
    s.review.postedFindingIds ++ (freshlyPosted pass s).map PrReviewFinding.id := by
  have hids : postedOf (passResult pass s).comments ((anchored pass s).map PrReviewFinding.id) =
      (freshlyPosted pass s).map PrReviewFinding.id := postedOf_map _ _
  rw [<- hids]
  rfl

theorem post_comments : (post pass s).pr.comments =
    s.pr.comments ++ (freshlyPosted pass s).map fun f => (f.id, inlineComment f) := by
  have hzip : (anchored pass s).map (fun f => (f.id, inlineComment f)) =
      (passBuilt pass s).commentFindingIds.zip (passInput pass s).comments := by
    rw [passInput_comments]
    exact List.zip_map'.symm
  have hposted : postedOf (passResult pass s).comments
      ((anchored pass s).map fun f => (f.id, inlineComment f)) =
        (freshlyPosted pass s).map fun f => (f.id, inlineComment f) := postedOf_map _ _
  rw [<- hposted, hzip]
  rfl

theorem post_bodies : (post pass s).pr.bodies =
    s.pr.bodies ++
      if (passResult pass s).bodyPosted = some true then [(passBuilt pass s).bodyParts]
      else [] := rfl

theorem post_postedBody : (post pass s).review.postedBody =
    (s.review.postedBody || decide ((passResult pass s).bodyPosted = some true)) := rfl

theorem freshlyPosted_sublist : List.Sublist (freshlyPosted pass s) s.review.findings :=
  ((postedOf_sublist _).trans List.filter_sublist).trans List.filter_sublist

theorem fresh_anchored {f : PrReviewFinding} (h : f ∈ freshlyPosted pass s) :
    f ∈ toPost s.review ∧
      isAnchorable (meetsStaleHead s pass) pass.commentable f = true :=
  List.mem_filter.mp ((postedOf_sublist _).subset h)

theorem not_posted_of_toPost {f : PrReviewFinding} (h : f ∈ toPost s.review) :
    f ∈ s.review.findings ∧ f.id ∈ s.review.selectedFindingIds ∧
      f.id ∉ s.review.postedFindingIds := by
  have hf := List.mem_filter.mp h
  refine ⟨hf.1, ?_⟩
  simpa using hf.2

theorem eq_of_id {f g : PrReviewFinding} (hs : PostInv findings s) (hf : f ∈ findings)
    (hg : g ∈ s.review.findings) (h : g.id = f.id) : g = f := by
  rw [hs.findings_same] at hg
  exact List.inj_on_of_nodup_map hs.minted hg hf h

/-- No body of a later pass carries the summary. -/
theorem bodyParts_noSummary (h : s.review.postedBody = true) :
    (passBuilt pass s).bodyParts.any BodyPart.isSummary = false := by
  simp only [passBuilt, buildPrReviewPost, reviewBodyParts, h, if_true, List.nil_append]
  split
  · split
    · rfl
    · rename_i hsome
      exact absurd rfl hsome
  · split
    · rfl
    · rfl

theorem postInv_post (hs : PostInv findings s) : PostInv findings (post pass s) where
  findings_same := hs.findings_same
  minted := hs.minted
  marked := by
    intro posted hposted
    rw [post_comments] at hposted
    rw [post_postedFindingIds]
    rcases List.mem_append.mp hposted with hold | hnew
    · exact List.mem_append_left _ (hs.marked posted hold)
    · rcases List.mem_map.mp hnew with ⟨f, hf, rfl⟩
      exact List.mem_append_right _ (List.mem_map_of_mem hf)
  backed := by
    intro f hf hposted
    rw [post_postedFindingIds] at hposted
    rw [post_comments]
    rcases List.mem_append.mp hposted with hold | hnew
    · rcases hs.backed f hf hold with ⟨comment, hcomment, hbody⟩
      exact ⟨comment, List.mem_append_left _ hcomment, hbody⟩
    · rcases List.mem_map.mp hnew with ⟨g, hg, hid⟩
      have hsame := eq_of_id hs hf (freshlyPosted_sublist.subset hg) hid
      subst hsame
      exact ⟨inlineComment g, List.mem_append_right _ (List.mem_map_of_mem hg), rfl⟩
  once := by
    rw [post_comments, List.map_append, List.nodup_append]
    refine ⟨hs.once, ?_, ?_⟩
    · have hsub := (@freshlyPosted_sublist pass s).map PrReviewFinding.id
      rw [hs.findings_same] at hsub
      rw [List.map_map]
      exact hs.minted.sublist hsub
    · intro id hold id' hnew hsame
      rcases List.mem_map.mp hold with ⟨posted, hposted, rfl⟩
      rcases List.mem_map.mp hnew with ⟨posted', hposted', rfl⟩
      rcases List.mem_map.mp hposted' with ⟨f, hf, rfl⟩
      have hfresh := (not_posted_of_toPost (fresh_anchored hf).1).2.2
      have hmarked := hs.marked posted hposted
      rw [hsame] at hmarked
      exact hfresh hmarked
  silent := by
    intro hsilent
    rw [post_postedBody, Bool.or_eq_false_iff] at hsilent
    have hnone : (passResult pass s).bodyPosted ≠ some true := by simpa using hsilent.2
    rw [post_bodies, hs.silent hsilent.1, if_neg hnone]
    rfl
  oneSummary := by
    unfold summaries
    rw [post_bodies, List.filter_append, List.length_append]
    cases hposted : s.review.postedBody with
    | false =>
        rw [hs.silent hposted]
        split
        · simp only [List.filter_nil, List.length_nil, Nat.zero_add]
          exact List.length_filter_le _ _
        · exact Nat.zero_le 1
    | true =>
        have hold := hs.oneSummary
        unfold summaries at hold
        split
        · rw [List.filter_singleton, bodyParts_noSummary hposted]
          simpa using hold
        · simpa using hold

/-!
## A pass that ends the review
-/

theorem complete_of_done (h : (post pass s).review.status = PrReviewStatus.done) :
    (forall f, f ∈ anchored pass s -> f ∈ freshlyPosted pass s) ∧
      (passResult pass s).bodyPosted ≠ some false := by
  have hstatus : (post pass s).review.status =
      if isPrReviewPostComplete
        (buildPrReviewPostReport (passBuilt pass s) (toPost s.review)
          (passResult pass s) s.review.postAttempts).1 then PrReviewStatus.done
      else PrReviewStatus.awaitingSelection := rfl
  rw [h] at hstatus
  split at hstatus
  · rename_i hcomplete
    simp only [isPrReviewPostComplete, buildPrReviewPostReport, Bool.and_eq_true,
      List.isEmpty_iff, List.map_eq_nil_iff] at hcomplete
    constructor
    · intro f hf
      apply mem_postedOf hf
      have hids : (passBuilt pass s).commentFindingIds =
          (anchored pass s).map PrReviewFinding.id := rfl
      have hnone := hcomplete.1
      rw [hids, List.zipIdx_map, List.filter_map, List.map_eq_nil_iff] at hnone
      exact hnone
    · exact of_decide_eq_true hcomplete.2
  · cases hstatus

theorem findings_mem_reviewBodyParts {summary : Option String}
    {unanchored : List PrReviewFinding} {inline : Nat} {staleHead already : Bool}
    (h : unanchored ≠ []) :
    BodyPart.findings staleHead unanchored ∈
      reviewBodyParts summary unanchored inline staleHead already := by
  simp only [reviewBodyParts, if_neg h]
  have hmem (parts : List BodyPart) :
      BodyPart.findings staleHead unanchored ∈
        parts ++ [BodyPart.findings staleHead unanchored] :=
    List.mem_append_right _ (List.mem_singleton.mpr rfl)
  rw [if_neg (List.ne_nil_of_mem (hmem _))]
  exact hmem _

theorem unanchored_of_toPost {f : PrReviewFinding} (hf : f ∈ toPost s.review)
    (h : isAnchorable (meetsStaleHead s pass) pass.commentable f = false) :
    exists unanchored, f ∈ unanchored ∧
      BodyPart.findings (meetsStaleHead s pass) unanchored ∈ (passBuilt pass s).bodyParts := by
  have hmem : f ∈ (toPost s.review).filter fun f =>
      !isAnchorable (meetsStaleHead s pass) pass.commentable f :=
    List.mem_filter.mpr ⟨hf, by rw [h]; rfl⟩
  exact ⟨_, hmem, findings_mem_reviewBodyParts (List.ne_nil_of_mem hmem)⟩

theorem createReview_body {call : CreateReviewCall} {input : CreateReviewInput}
    (hbody : input.body ≠ "") (h : (createReview call input).bodyPosted ≠ some false) :
    (createReview call input).bodyPosted = some true := by
  cases call with
  | throws reason => simp [createReview, hbody] at h
  | answers comment body =>
      cases body with
      | none => simp [createReview, hbody]
      | some error => simp [createReview, hbody] at h

theorem createReview_noBody {call : CreateReviewCall} {input : CreateReviewInput}
    (hbody : input.body = "") : (createReview call input).bodyPosted = none := by
  cases call with
  | throws reason => simp [createReview, hbody]
  | answers comment body => simp [createReview, hbody]

/-- A body that is sent lands where the pass ends the review. -/
theorem body_lands (hdone : (passResult pass s).bodyPosted ≠ some false)
    (hsent : suppresses pass s = false)
    (hbody : bodyText (passBuilt pass s).bodyParts ≠ "") :
    (passResult pass s).bodyPosted = some true := by
  refine createReview_body ?_ hdone
  unfold passInput
  rw [hsent]
  exact hbody

theorem bodies_of_suppressed (h : suppresses pass s = true) :
    (post pass s).pr.bodies = s.pr.bodies := by
  have hbody : (passResult pass s).bodyPosted = none := by
    apply createReview_noBody
    unfold passInput
    rw [h]
    rfl
  rw [post_bodies, hbody]
  simp

theorem suppresses_iff : suppresses pass s = true <->
    s.review.postedBody = true ∧
      (meetsStaleHead s pass = true ->
        forall f, f ∈ toPost s.review -> carriesLocation f = false) := by
  unfold suppresses
  cases hstale : meetsStaleHead s pass with
  | false => simp
  | true =>
      have hnone : forall f, isAnchorable true pass.commentable f = false := fun _ => rfl
      simp [passBuilt, buildPrReviewPost, hstale, hnone, List.filter_eq_nil_iff]

theorem delivered_mono {f : PrReviewFinding} (h : Delivered s.pr f) :
    Delivered (post pass s).pr f := by
  rcases h with ⟨comment, hcomment, hbody⟩ | hlisted
  · left
    refine ⟨comment, ?_, hbody⟩
    rw [post_comments]
    exact List.mem_append_left _ hcomment
  · right
    apply hlisted.mono
    intro parts hparts
    rw [post_bodies]
    exact List.mem_append_left _ hparts

/-- Whether a pass that ends the review has delivered a finding it was to post. -/
theorem delivered_iff {f : PrReviewFinding} (hs : PostInv findings s)
    (hdone : (post pass s).review.status = PrReviewStatus.done)
    (hf : f ∈ toPost s.review) :
    Delivered (post pass s).pr f <->
      (suppresses pass s = true ->
        isAnchorable (meetsStaleHead s pass) pass.commentable f = true ∨ Listed s.pr f) := by
  rcases complete_of_done hdone with ⟨hall, hbody⟩
  have hpost := not_posted_of_toPost hf
  constructor
  · rintro (⟨comment, hcomment, _⟩ | hlisted) hsuppressed
    · rw [post_comments] at hcomment
      rcases List.mem_append.mp hcomment with hold | hnew
      · exact absurd (hs.marked _ hold) hpost.2.2
      · left
        rcases List.mem_map.mp hnew with ⟨g, hg, heq⟩
        have hid : g.id = f.id := congrArg Prod.fst heq
        have hfindings : f ∈ findings := by
          rw [<- hs.findings_same]
          exact hpost.1
        have hsame := eq_of_id hs hfindings (freshlyPosted_sublist.subset hg) hid
        rw [<- hsame]
        exact (fresh_anchored hg).2
    · right
      rcases hlisted with ⟨parts, staleHead, unanchored, hparts, hrest⟩
      rw [bodies_of_suppressed hsuppressed] at hparts
      exact ⟨parts, staleHead, unanchored, hparts, hrest⟩
  · intro hkeeps
    cases hanchored : isAnchorable (meetsStaleHead s pass) pass.commentable f with
    | true =>
        left
        refine ⟨inlineComment f, ?_, rfl⟩
        rw [post_comments]
        apply List.mem_append_right
        exact List.mem_map_of_mem (hall f (List.mem_filter.mpr ⟨hf, hanchored⟩))
    | false =>
        cases hsuppressed : suppresses pass s with
        | true =>
            rcases hkeeps hsuppressed with h | hlisted
            · rw [hanchored] at h
              cases h
            · exact delivered_mono (Or.inr hlisted)
        | false =>
            right
            rcases unanchored_of_toPost hf hanchored with ⟨unanchored, hmem, hpart⟩
            have hlands := body_lands hbody hsuppressed (bodyText_ne_empty hpart)
            refine ⟨(passBuilt pass s).bodyParts, _, unanchored, ?_, hpart, hmem⟩
            rw [post_bodies, if_pos hlands]
            exact List.mem_append_right _ (List.mem_singleton.mpr rfl)

end Pass

/-!
## Any number of passes
-/

section Law

variable {s t : Posting} {pass : PostPass} {trace : List PostPass}

theorem postInv_resolve {findings : List PrReviewFinding} {findingIds : List String}
    {review : PrReviewStepState} (hs : PostInv findings s)
    (h : resolvePost findingIds s.review = some review) :
    PostInv findings { s with review := review } := by
  simp only [resolvePost] at h
  split at h
  · cases h
    exact ⟨hs.findings_same, hs.minted, hs.marked, hs.backed, hs.once, hs.silent,
      hs.oneSummary⟩
  · cases h

theorem postInv_step {findings : List PrReviewFinding} (hs : PostInv findings s)
    (h : postStep s pass = some t) : PostInv findings t := by
  rcases Option.map_eq_some_iff.mp h with ⟨review, hresolved, rfl⟩
  exact postInv_post (postInv_resolve hs hresolved)

theorem postInv_run {start : ParkedReview} {ok : Posting -> PostPass -> Prop}
    (hrun : RunWhere postStep ok { review := start.review } trace s) :
    PostInv start.review.findings s :=
  RunWhere.invariant (postInv_start start) (fun _ _ _ hs _ h => postInv_step hs h) hrun

/-- The findings that the last resolution selected. -/
def selectedFindings (review : PrReviewStepState) : List PrReviewFinding :=
  review.findings.filter fun f => review.selectedFindingIds.contains f.id

theorem resolvePost_spec {findingIds : List String} {review : PrReviewStepState}
    (h : resolvePost findingIds s.review = some review) :
    review.findings = s.review.findings ∧
      review.selectedFindingIds = selectable s.review findingIds ∧
      review.postedFindingIds = s.review.postedFindingIds ∧
      review.postedBody = s.review.postedBody ∧
      review.reviewedHeadSha = s.review.reviewedHeadSha := by
  simp only [resolvePost] at h
  split at h
  · cases h
    exact ⟨rfl, rfl, rfl, rfl, rfl⟩
  · cases h

theorem delivered_step_iff {findings : List PrReviewFinding} (hs : PostInv findings s)
    (h : postStep s pass = some t) (hdone : t.review.status = PrReviewStatus.done) :
    (forall f, f ∈ selectedFindings t.review -> Delivered t.pr f) <-> KeepsFolded s pass := by
  rcases Option.map_eq_some_iff.mp h with ⟨review, hresolved, rfl⟩
  have hmid := postInv_resolve hs hresolved
  rcases resolvePost_spec hresolved with ⟨hfindings, hselected, hposted, hbody, hhead⟩
  have htoPost : passFindings s pass = toPost review := by
    simp only [passFindings, toPost, hfindings, hselected, hposted]
  have hstale : meetsStaleHead s pass = meetsStaleHead { s with review := review } pass := by
    simp only [meetsStaleHead, detectStaleHead, hhead]
  have hkeeps : KeepsFolded s pass <->
      forall f, f ∈ toPost review ->
        suppresses pass { s with review := review } = true ->
        isAnchorable (meetsStaleHead { s with review := review } pass) pass.commentable f =
          true ∨ Listed s.pr f := by
    unfold KeepsFolded
    rw [htoPost, hstale, <- hbody]
    constructor
    · intro hkeeps f hf hsuppressed
      rcases suppresses_iff.mp hsuppressed with ⟨hsticky, hstay⟩
      exact hkeeps hsticky hstay f hf
    · intro hkeeps hsticky hstay f hf
      exact hkeeps f hf (suppresses_iff.mpr ⟨hsticky, hstay⟩)
  rw [hkeeps]
  constructor
  · intro hall f hf
    have hlive := @not_posted_of_toPost { s with review := review } f hf
    have hmem : f ∈ selectedFindings
        (post pass { s with review := review }).review :=
      List.mem_filter.mpr ⟨hlive.1, List.contains_iff_mem.mpr hlive.2.1⟩
    exact (delivered_iff hmid hdone hf).mp (hall f hmem)
  · intro hall f hf
    have hlive := List.mem_filter.mp hf
    by_cases hmark : f.id ∈ review.postedFindingIds
    · have hin : f ∈ findings := by
        rw [<- hmid.findings_same]
        exact hlive.1
      exact delivered_mono (Or.inl (hmid.backed f hin hmark))
    · have hpost : f ∈ toPost review := by
        refine List.mem_filter.mpr ⟨hlive.1, ?_⟩
        have hchosen : review.selectedFindingIds.contains f.id = true := hlive.2
        simpa [hmark] using hchosen
      exact (delivered_iff hmid hdone hpost).mpr (hall f hpost)

/-- The laws of posting, and when a pass that ends the review has delivered all
that was selected. -/
theorem posting_law {start : ParkedReview}
    (hrun : Run postStep { review := start.review } trace s) :
    (summaries s.pr).length ≤ 1 ∧ (s.pr.comments.map Prod.fst).Nodup ∧
      (forall f, Delivered s.pr f -> TextDelivered s.pr f) ∧
      (RunWhere postStep KeepsFolded { review := start.review } trace s ->
        s.review.status = PrReviewStatus.done ->
        forall f, f ∈ selectedFindings s.review -> Delivered s.pr f) ∧
      forall pass t, postStep s pass = some t -> t.review.status = PrReviewStatus.done ->
        ((forall f, f ∈ selectedFindings t.review -> Delivered t.pr f) <->
          KeepsFolded s pass) := by
  have hs := postInv_run hrun
  refine ⟨hs.oneSummary, hs.once, fun f h => h.text, ?_, ?_⟩
  · intro hkept hdone
    cases hkept with
    | nil =>
        rw [start.parked] at hdone
        cases hdone
    | snoc hbefore hok hstep =>
        exact (delivered_step_iff (postInv_run hbefore) hstep hdone).mpr hok
  · intro pass t h hdone
    exact delivered_step_iff hs h hdone

end Law

/-!
## A finding without a line
-/

/-- Two findings on lines of the diff, and one about no line. -/
def lockReview : ParkedReview where
  review :=
    { status := PrReviewStatus.awaitingSelection
      summary := some "The lock is not safe."
      findings :=
        [{ id := "prf_1", path := "lock.ts", line := some 3, severity := .high,
           category := .correctness, title := "Leak", detail := "It is never released." },
          { id := "prf_2", path := "lock.ts", line := some 9, severity := .low,
            category := .style, title := "Name", detail := "Say what it guards." },
          { id := "prf_3", path := "", severity := .medium,
            category := .test, title := "Tests", detail := "Nothing covers a timeout." }] }
  parked := rfl
  unposted := rfl
  bodyUnposted := rfl
  minted := by decide

/-- The host takes the summary and the first comment, and refuses the second. -/
def firstPass (findingIds : List String) : PostPass where
  findingIds := findingIds
  call := .answers (fun i => if i = 1 then some "timed out" else none) none

/-- The host takes everything. -/
def nextPass (findingIds : List String) : PostPass where
  findingIds := findingIds
  call := .answers (fun _ => none) none

def isListed (pr : PullRequest) (finding : PrReviewFinding) : Bool :=
  pr.bodies.any fun parts => parts.any fun part =>
    match part with
    | .findings _ unanchored => unanchored.contains finding
    | _ => false

theorem listed_of_isListed {pr : PullRequest} {finding : PrReviewFinding}
    (h : isListed pr finding = true) : Listed pr finding := by
  rcases List.any_eq_true.mp h with ⟨parts, hparts, hany⟩
  rcases List.any_eq_true.mp hany with ⟨part, hpart, hcontains⟩
  cases part with
  | findings staleHead unanchored =>
      exact ⟨parts, staleHead, unanchored, hparts, hpart, List.contains_iff_mem.mp hcontains⟩
  | summary text => cases hcontains
  | count inline => cases hcontains

theorem keepsFolded_of_all {s : Posting} {pass : PostPass}
    (h : ((passFindings s pass).all fun f =>
      isAnchorable (meetsStaleHead s pass) pass.commentable f || isListed s.pr f) = true) :
    KeepsFolded s pass := by
  intro _ _ f hf
  have hcheck := List.all_eq_true.mp h f hf
  rw [Bool.or_eq_true] at hcheck
  exact hcheck.imp_right listed_of_isListed

/-- The retry of a selection whose line-less finding was in the first body. -/
theorem posting_law_retried :
    exists s t, postStep s (nextPass ["prf_2", "prf_3"]) = some t ∧
      t.review.status = PrReviewStatus.done ∧ (summaries s.pr).length ≤ 1 ∧
      forall f, f ∈ selectedFindings t.review -> Delivered t.pr f := by
  have hfirst := @run_endOf _ _ postStep [firstPass ["prf_1", "prf_2", "prf_3"]]
    { review := lockReview.review } (by decide +kernel)
  have hlaw := posting_law hfirst
  refine ⟨_, endOf postStep { review := lockReview.review }
    [firstPass ["prf_1", "prf_2", "prf_3"], nextPass ["prf_2", "prf_3"]], ?_, ?_, hlaw.1, ?_⟩
  · decide +kernel
  · decide +kernel
  · refine (hlaw.2.2.2.2 (nextPass ["prf_2", "prf_3"]) _ ?_ ?_).mpr
      (keepsFolded_of_all ?_)
    · decide +kernel
    · decide +kernel
    · decide +kernel

/-- The line-less finding is selected only after the summary landed: the review ends
without it. -/
theorem not_posting_law :
    exists s f, Run postStep { review := lockReview.review }
        [firstPass ["prf_1", "prf_2"], nextPass ["prf_2", "prf_3"]] s ∧
      s.review.status = PrReviewStatus.done ∧ f ∈ selectedFindings s.review ∧
      ¬ TextDelivered s.pr f := by
  refine ⟨endOf postStep { review := lockReview.review }
      [firstPass ["prf_1", "prf_2"], nextPass ["prf_2", "prf_3"]],
    { id := "prf_3", path := "", severity := .medium,
      category := .test, title := "Tests", detail := "Nothing covers a timeout." },
    run_endOf (by decide +kernel), ?_, ?_, ?_⟩
  · decide +kernel
  · decide +kernel
  · decide +kernel

end Reviews
end CatFactory
