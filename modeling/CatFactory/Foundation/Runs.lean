import Mathlib.Data.List.Basic

/-!
# Runs of a labelled step function

A system is given by a partial step function: `step s a` is the state that
label `a` leads to, or `none` when `a` is not enabled in
`s`.  A run is a list of labels taken one after the other from a fixed
start state, and `RunWhere` restricts it to steps that meet a condition on
the state they start from.
-/

namespace CatFactory
namespace Foundation

variable {state label : Type}

/-- Runs from `start` whose every step is enabled and meets `ok`. -/
inductive RunWhere (step : state -> label -> Option state)
    (ok : state -> label -> Prop) (start : state) :
    List label -> state -> Prop where
  | nil : RunWhere step ok start [] start
  | snoc {trace : List label} {s t : state} {a : label} :
      RunWhere step ok start trace s -> ok s a -> step s a = some t ->
      RunWhere step ok start (trace ++ [a]) t

/-- Runs with no condition on their steps. -/
abbrev Run (step : state -> label -> Option state) (start : state) :
    List label -> state -> Prop :=
  RunWhere step (fun _ _ => True) start

/-!
# Invariants

One step lemma gives the run lemma.
-/

theorem RunWhere.invariant {step : state -> label -> Option state}
    {ok : state -> label -> Prop} {start : state} {I : state -> Prop}
    (hstart : I start)
    (hstep : forall s a t, I s -> ok s a -> step s a = some t -> I t)
    {trace : List label} {s : state}
    (hrun : RunWhere step ok start trace s) : I s := by
  induction hrun with
  | nil => exact hstart
  | snoc _ hok hs ih => exact hstep _ _ _ ih hok hs

theorem RunWhere.append {step : state -> label -> Option state}
    {ok : state -> label -> Prop} {start mid s : state}
    {first second : List label}
    (hfirst : RunWhere step ok start first mid)
    (hsecond : RunWhere step ok mid second s) :
    RunWhere step ok start (first ++ second) s := by
  induction hsecond with
  | nil => simpa using hfirst
  | snoc _ ha hs ih =>
      rw [← List.append_assoc]
      exact RunWhere.snoc ih ha hs

/-!
# Executable runs

A concrete run is evaluated label by label; the check of the condition rides
along as a Boolean test.
-/

/-- Take the labels of `trace` in order, testing every step with `test`. -/
def runChecked (step : state -> label -> Option state)
    (test : state -> label -> Bool) : state -> List label -> Option state
  | s, [] => some s
  | s, a :: rest =>
      if test s a then
        match step s a with
        | none => none
        | some t => runChecked step test t rest
      else none

theorem runWhere_of_runChecked {step : state -> label -> Option state}
    {ok : state -> label -> Prop} {test : state -> label -> Bool}
    (htest : forall s a, test s a = true -> ok s a)
    {trace : List label} {start s : state}
    (h : runChecked step test start trace = some s) :
    RunWhere step ok start trace s := by
  induction trace generalizing start with
  | nil =>
      cases h
      exact RunWhere.nil
  | cons a rest ih =>
      unfold runChecked at h
      split at h
      · rename_i hok
        cases hs : step start a with
        | none =>
            rw [hs] at h
            cases h
        | some mid =>
            rw [hs] at h
            have hfirst : RunWhere step ok start [a] mid :=
              RunWhere.snoc RunWhere.nil (htest start a hok) hs
            exact hfirst.append (ih h)
      · cases h

/-- Take the labels of `trace` in order. -/
def runFrom (step : state -> label -> Option state) (start : state)
    (trace : List label) : Option state :=
  runChecked step (fun _ _ => true) start trace

theorem run_of_runFrom {step : state -> label -> Option state}
    {trace : List label} {start s : state}
    (h : runFrom step start trace = some s) : Run step start trace s :=
  runWhere_of_runChecked (fun _ _ _ => trivial) h

/-- Where the labels of `trace` lead, and `start` if they cannot be taken. -/
def endOf (step : state -> label -> Option state) (start : state)
    (trace : List label) : state :=
  (runFrom step start trace).getD start

theorem runFrom_of_runChecked {step : state -> label -> Option state}
    {test : state -> label -> Bool} {trace : List label} {start s : state}
    (h : runChecked step test start trace = some s) :
    runFrom step start trace = some s := by
  induction trace generalizing start with
  | nil => exact h
  | cons a rest ih =>
      unfold runChecked at h
      split at h
      · unfold runFrom runChecked
        cases hs : step start a with
        | none =>
            rw [hs] at h
            cases h
        | some mid =>
            rw [hs] at h
            exact ih h
      · cases h

theorem runWhere_endOf {step : state -> label -> Option state}
    {ok : state -> label -> Prop} {test : state -> label -> Bool}
    (htest : forall s a, test s a = true -> ok s a)
    {trace : List label} {start : state}
    (h : (runChecked step test start trace).isSome = true) :
    RunWhere step ok start trace (endOf step start trace) := by
  cases hrun : runChecked step test start trace with
  | none =>
      rw [hrun] at h
      cases h
  | some s =>
      unfold endOf
      rw [runFrom_of_runChecked hrun]
      exact runWhere_of_runChecked htest hrun

theorem run_endOf {step : state -> label -> Option state} {trace : List label}
    {start : state} (h : (runFrom step start trace).isSome = true) :
    Run step start trace (endOf step start trace) :=
  runWhere_endOf (fun _ _ _ => trivial) h

end Foundation
end CatFactory
