import Mathlib.Data.List.Infix

/-! A reliable pipe: what is got out of it is what was put into it, in order, each piece once. -/

namespace Pipe

variable {α : Type}

/-- What can be seen at the two ends. -/
inductive Action (α : Type) where
  | put (xs : List α)
  | get (xs : List α)
  deriving DecidableEq, Repr

/-- The actions, in order, take a pipe with the one content to the other. Anything can be put in;
only what comes first can be got out. -/
inductive Transfers : List α → List (Action α) → List α → Prop
  | nil (contents : List α) : Transfers contents [] contents
  | put {start contents : List α} {actions : List (Action α)} (xs : List α) (h : Transfers start actions contents) :
      Transfers start (actions ++ [.put xs]) (contents ++ xs)
  | get {start contents : List α} {actions : List (Action α)} (xs : List α) (h : Transfers start actions (xs ++ contents)) :
      Transfers start (actions ++ [.get xs]) contents

def puts (actions : List (Action α)) : List α :=
  actions.flatMap fun
    | .put xs => xs
    | .get _ => []

def gets (actions : List (Action α)) : List α :=
  actions.flatMap fun
    | .put _ => []
    | .get xs => xs

@[simp] theorem puts_append (actions more : List (Action α)) : puts (actions ++ more) = puts actions ++ puts more :=
  List.flatMap_append

@[simp] theorem gets_append (actions more : List (Action α)) : gets (actions ++ more) = gets actions ++ gets more :=
  List.flatMap_append

@[simp] theorem puts_map_put (xss : List (List α)) : puts (xss.map .put) = xss.flatten := by
  unfold puts
  rw [List.flatMap_map, ← List.flatMap_id]
  rfl

@[simp] theorem gets_map_put (xss : List (List α)) : gets (xss.map .put) = [] := by
  unfold gets
  rw [List.flatMap_map]
  exact List.flatMap_eq_nil_iff.mpr fun _ _ => rfl

@[simp] theorem puts_map_get (xss : List (List α)) : puts (xss.map .get) = [] := by
  unfold puts
  rw [List.flatMap_map]
  exact List.flatMap_eq_nil_iff.mpr fun _ _ => rfl

@[simp] theorem gets_map_get (xss : List (List α)) : gets (xss.map .get) = xss.flatten := by
  unfold gets
  rw [List.flatMap_map, ← List.flatMap_id]
  rfl

/-- Nothing is lost, and nothing is made up. -/
theorem Transfers.conserves {start contents : List α} {actions : List (Action α)} (h : Transfers start actions contents) :
    start ++ puts actions = gets actions ++ contents := by
  induction h with
  | nil => exact List.append_nil _
  | put xs _ ih =>
    have hput : puts [Action.put xs] = xs := List.append_nil xs
    have hget : gets [Action.put xs] = [] := rfl
    rw [puts_append, gets_append, hput, hget, List.append_nil, ← List.append_assoc, ih, List.append_assoc]
  | get xs _ ih =>
    have hput : puts [Action.get xs] = [] := rfl
    have hget : gets [Action.get xs] = xs := List.append_nil xs
    rw [puts_append, gets_append, hput, hget, List.append_nil, ih, List.append_assoc]

/-- A pipe that was empty at first can do this. -/
def Legal (actions : List (Action α)) : Prop := ∃ contents, Transfers [] actions contents

/-- A pipe that nobody has used. -/
theorem legal_nil : Legal ([] : List (Action α)) := ⟨[], .nil []⟩

/-- Anything may be put in. -/
theorem Legal.puts {actions : List (Action α)} (h : Legal actions) (xss : List (List α)) :
    Legal (actions ++ xss.map .put) := by
  induction xss generalizing actions with
  | nil => simpa using h
  | cons xs xss ih =>
    obtain ⟨contents, h⟩ := h
    have hrest := ih ⟨_, h.put xs⟩
    rw [List.append_assoc] at hrest
    exact hrest

/-- What has been got so far and comes next has been put in. -/
theorem Legal.gets {actions : List (Action α)} (h : Legal actions) {xss : List (List α)}
    (hnext : Pipe.gets actions ++ xss.flatten <+: Pipe.puts actions) : Legal (actions ++ xss.map .get) := by
  induction xss generalizing actions with
  | nil => simpa using h
  | cons xs xss ih =>
    obtain ⟨contents, h⟩ := h
    obtain ⟨rest, hrest⟩ := hnext
    have hall : Pipe.puts actions = Pipe.gets actions ++ contents := h.conserves
    rw [List.flatten_cons, List.append_assoc, hall, List.append_cancel_left_eq, List.append_assoc] at hrest
    subst hrest
    have hput : Pipe.puts [Action.get xs] = [] := rfl
    have hget : Pipe.gets [Action.get xs] = xs := List.append_nil xs
    have hmore := ih ⟨_, h.get xs⟩ (by
      rw [puts_append, gets_append, hput, hget, List.append_nil, hall]
      exact ⟨rest, by simp only [List.append_assoc]⟩)
    rw [List.append_assoc] at hmore
    exact hmore

/-- What comes out are the first of what went in. -/
theorem Legal.ordered {actions : List (Action α)} (h : Legal actions) : Pipe.gets actions <+: Pipe.puts actions := by
  obtain ⟨contents, h⟩ := h
  exact ⟨contents, h.conserves.symm⟩

end Pipe
