import CatFactory.Foundation.KeyedFold

/-!
# Machines behind one router

A step that takes an event and may put things out is run over a list of events.
Where every event goes to one of many such machines, each machine sees its own
events only: its state and its outputs are those of a run by itself.
-/

namespace CatFactory
namespace Foundation

section Emit

variable {state event output : Type} (step : state -> event -> state × List output)

/-- Run over events, with everything that was put out. -/
def emitAll : state -> List event -> state × List output
  | s, [] => (s, [])
  | s, e :: rest =>
      ((emitAll (step s e).1 rest).1, (step s e).2 ++ (emitAll (step s e).1 rest).2)

theorem emitAll_append (s : state) (first second : List event) :
    emitAll step s (first ++ second) =
      ((emitAll step (emitAll step s first).1 second).1,
        (emitAll step s first).2 ++ (emitAll step (emitAll step s first).1 second).2) := by
  induction first generalizing s with
  | nil => rfl
  | cons e rest ih => rw [List.cons_append, emitAll, ih, emitAll, List.append_assoc]

theorem emitAll_snoc (s : state) (events : List event) (e : event) :
    emitAll step s (events ++ [e]) =
      ((step (emitAll step s events).1 e).1,
        (emitAll step s events).2 ++ (step (emitAll step s events).1 e).2) := by
  rw [emitAll_append, emitAll, emitAll, List.append_nil]

theorem emitAll_map {source : Type} (f : source -> event) (s : state) (sources : List source) :
    emitAll (fun s x => step s (f x)) s sources = emitAll step s (sources.map f) := by
  induction sources generalizing s with
  | nil => rfl
  | cons x rest ih => rw [List.map_cons, emitAll, emitAll, ih]

/-- Renaming what is put out. -/
theorem emitAll_rename {renamed : Type} (g : output -> renamed) (s : state)
    (events : List event) :
    emitAll (fun s e => ((step s e).1, (step s e).2.map g)) s events =
      ((emitAll step s events).1, (emitAll step s events).2.map g) := by
  induction events generalizing s with
  | nil => rfl
  | cons e rest ih => rw [emitAll, emitAll, ih, List.map_append]

/-- A machine that does nothing. -/
theorem emitAll_idle (s : state) (events : List event) :
    emitAll (fun s _ => (s, ([] : List output))) s events = (s, []) := by
  induction events generalizing s with
  | nil => rfl
  | cons e rest ih => rw [emitAll, ih, List.nil_append]

/-- What every step keeps holds after a run. -/
theorem emitAll_invariant {holds : state -> Prop}
    (hstep : forall s e, holds s -> holds (step s e).1) {s : state} (hstart : holds s)
    (events : List event) : holds (emitAll step s events).1 := by
  induction events generalizing s with
  | nil => exact hstart
  | cons e rest ih => exact ih (hstep s e hstart)

end Emit

/-!
## Routing
-/

section Routing

variable {system key state event output : Type} [DecidableEq key]

/-- What is tagged with a key. -/
def taggedWith {item : Type} (k : key) (items : List (key × item)) : List item :=
  items.filterMap fun tagged => if tagged.1 = k then some tagged.2 else none

theorem taggedWith_append {item : Type} (k : key) (xs ys : List (key × item)) :
    taggedWith k (xs ++ ys) = taggedWith k xs ++ taggedWith k ys :=
  List.filterMap_append

theorem taggedWith_tag {item : Type} (k k' : key) (items : List item) :
    taggedWith k (items.map fun x => (k', x)) = if k' = k then items else [] := by
  unfold taggedWith
  by_cases hk : k' = k
  · rw [if_pos hk, List.filterMap_map]
    simp [hk]
  · rw [if_neg hk, List.filterMap_map]
    simp [hk]

theorem taggedWith_none {item : Type} {k : key} {items : List (key × item)}
    (h : forall tagged, tagged ∈ items -> tagged.1 ≠ k) : taggedWith k items = [] := by
  apply List.filterMap_eq_nil_iff.mpr
  intro tagged htagged
  exact if_neg (h tagged htagged)

/-- What each entry of a map puts out under a tag of its own, read at one tag. -/
theorem taggedWith_flatMap {name value item : Type} [DecidableEq name] [BEq name]
    [LawfulBEq name] {tag : name -> key} (htag : Function.Injective tag) (items : value -> List item)
    {entries : List (name × value)} (hnodup : (entries.map Prod.fst).Nodup) (n : name) :
    taggedWith (tag n)
        (entries.flatMap fun entry => (items entry.2).map fun x => (tag entry.1, x)) =
      ((entries.lookup n).map items).getD [] := by
  induction entries with
  | nil => rfl
  | cons entry rest ih =>
      rcases entry with ⟨n', v⟩
      rcases List.nodup_cons.mp hnodup with ⟨hfresh, hrest⟩
      rw [List.flatMap_cons, taggedWith_append, taggedWith_tag, ih hrest, lookup_cons_eq]
      by_cases hn : n' = n
      · have hnone : rest.lookup n = none := by
          rw [List.lookup_eq_none_iff]
          intro other hother
          apply bne_iff_ne.mpr
          intro heq
          apply hfresh
          rw [hn, heq]
          exact List.mem_map.mpr ⟨other, hother, rfl⟩
        rw [if_pos (congrArg tag hn), if_pos hn, hnone]
        exact List.append_nil _
      · rw [if_neg fun heq => hn (htag heq), if_neg hn]
        rfl

/-- A system hands each event to the machine of its key, and puts out what that machine does. -/
structure Routes (step : system -> key × event -> system × List (key × output))
    (view : system -> key -> state) (machine : key -> state -> event -> state × List output) :
    Prop where
  here : forall s k e, view (step s (k, e)).1 k = (machine k (view s k) e).1
  apart : forall s k e k', k' ≠ k -> view (step s (k, e)).1 k' = view s k'
  output : forall s k e,
    (step s (k, e)).2 = (machine k (view s k) e).2.map fun x => (k, x)

/-- A machine behind a router runs as it would by itself. -/
theorem Routes.run {step : system -> key × event -> system × List (key × output)}
    {view : system -> key -> state} {machine : key -> state -> event -> state × List output}
    (h : Routes step view machine) (s : system) (events : List (key × event)) (k : key) :
    view (emitAll step s events).1 k =
        (emitAll (machine k) (view s k) (taggedWith k events)).1 ∧
      taggedWith k (emitAll step s events).2 =
        (emitAll (machine k) (view s k) (taggedWith k events)).2 := by
  induction events generalizing s with
  | nil => exact ⟨rfl, rfl⟩
  | cons tagged rest ih =>
      rcases tagged with ⟨k', e⟩
      rcases ih (step s (k', e)).1 with ⟨hstate, houtput⟩
      rw [emitAll, taggedWith_append, hstate, houtput, h.output, taggedWith_tag]
      by_cases hk : k' = k
      · have htagged : taggedWith k ((k', e) :: rest) = e :: taggedWith k rest := by
          simp [taggedWith, hk]
        rw [htagged, if_pos hk, hk, h.here, emitAll]
        exact ⟨rfl, rfl⟩
      · have htagged : taggedWith k ((k', e) :: rest) = taggedWith k rest := by
          simp [taggedWith, hk]
        rw [htagged, if_neg hk, h.apart s k' e k (Ne.symm hk), List.nil_append]
        exact ⟨rfl, rfl⟩

end Routing

end Foundation
end CatFactory
