import Mathlib.Data.List.Induction

/-! Runs of a deterministic transition system: a step function folded over a list
of inputs. -/

namespace Trace

variable {σ ι : Type}

/-- The state reached from `s` by the inputs `is`, taken in order. -/
def run (step : σ → ι → σ) (s : σ) (is : List ι) : σ := is.foldl step s

@[simp] theorem run_nil (step : σ → ι → σ) (s : σ) : run step s [] = s := rfl

theorem run_cons (step : σ → ι → σ) (s : σ) (i : ι) (is : List ι) :
    run step s (i :: is) = run step (step s i) is := rfl

@[simp] theorem run_append (step : σ → ι → σ) (s : σ) (first second : List ι) :
    run step s (first ++ second) = run step (run step s first) second := List.foldl_append

@[simp] theorem run_concat (step : σ → ι → σ) (s : σ) (is : List ι) (i : ι) :
    run step s (is ++ [i]) = step (run step s is) i := by simp [run]

/-- The invariant rule. A property of the history and the state that holds at the
start and that one further input preserves holds after every run. -/
theorem invariant {step : σ → ι → σ} {s : σ} (P : List ι → σ → Prop) (hinit : P [] s)
    (hstep : ∀ is i, P is (run step s is) → P (is ++ [i]) (step (run step s is) i)) (is : List ι) :
    P is (run step s is) := by
  induction is using List.reverseRecOn with
  | nil => exact hinit
  | append_singleton is i ih =>
    rw [run_concat]
    exact hstep is i ih

/-- What a run adds up when each step contributes `weight state input`. -/
def total (step : σ → ι → σ) (weight : σ → ι → Nat) (s : σ) : List ι → Nat
  | [] => 0
  | i :: is => weight s i + total step weight (step s i) is

@[simp] theorem total_nil (step : σ → ι → σ) (weight : σ → ι → Nat) (s : σ) :
    total step weight s [] = 0 := rfl

/-- The weight of two runs after one another. -/
theorem total_append (step : σ → ι → σ) (weight : σ → ι → Nat) (s : σ) (first second : List ι) :
    total step weight s (first ++ second) =
      total step weight s first + total step weight (run step s first) second := by
  induction first generalizing s with
  | nil => simp
  | cons i first ih => simp [total, ih, run_cons, Nat.add_assoc]

@[simp] theorem total_concat (step : σ → ι → σ) (weight : σ → ι → Nat) (s : σ) (is : List ι) (i : ι) :
    total step weight s (is ++ [i]) = total step weight s is + weight (run step s is) i := by
  simp [total_append, total]

theorem total_add (step : σ → ι → σ) (first second : σ → ι → Nat) (s : σ) (is : List ι) :
    total step (fun s i => first s i + second s i) s is = total step first s is + total step second s is := by
  induction is generalizing s with
  | nil => rfl
  | cons i is ih => simp [total, ih, Nat.add_add_add_comm]

theorem total_mul (step : σ → ι → σ) (n : Nat) (weight : σ → ι → Nat) (s : σ) (is : List ι) :
    total step (fun s i => n * weight s i) s is = n * total step weight s is := by
  induction is generalizing s with
  | nil => rfl
  | cons i is ih => simp [total, ih, Nat.mul_add]

/-- What a run records when each step records `emit state input`. -/
def log {β : Type} (step : σ → ι → σ) (emit : σ → ι → List β) (s : σ) : List ι → List β
  | [] => []
  | i :: is => emit s i ++ log step emit (step s i) is

@[simp] theorem log_nil {β : Type} (step : σ → ι → σ) (emit : σ → ι → List β) (s : σ) : log step emit s [] = [] := rfl

@[simp] theorem log_concat {β : Type} (step : σ → ι → σ) (emit : σ → ι → List β) (s : σ) (is : List ι) (i : ι) :
    log step emit s (is ++ [i]) = log step emit s is ++ emit (run step s is) i := by
  induction is generalizing s with
  | nil => simp [log]
  | cons j is ih => simp [log, ih, run_cons]

/-- The log of two runs after one another. -/
theorem log_append {β : Type} (step : σ → ι → σ) (emit : σ → ι → List β) (s : σ) (first second : List ι) :
    log step emit s (first ++ second) = log step emit s first ++ log step emit (run step s first) second := by
  induction first generalizing s with
  | nil => rfl
  | cons i first ih => simp [log, ih, run_cons]

/-- The length of a log is the weight of its entries. -/
theorem length_flatten_log {β : Type} (step : σ → ι → σ) (emit : σ → ι → List (List β)) (s : σ) (is : List ι) :
    (log step emit s is).flatten.length = total step (fun s i => (emit s i).flatten.length) s is := by
  induction is generalizing s with
  | nil => rfl
  | cons i is ih => rw [log, List.flatten_append, List.length_append, ih, total]

/-- The property holds at every step of the run: of the state before the step and of
the input taken there. -/
def Always (step : σ → ι → σ) (P : σ → ι → Prop) (s : σ) : List ι → Prop
  | [] => True
  | i :: is => P s i ∧ Always step P (step s i) is

instance decidableAlways (step : σ → ι → σ) (P : σ → ι → Prop) [∀ s i, Decidable (P s i)] (s : σ) :
    (is : List ι) → Decidable (Always step P s is)
  | [] => .isTrue trivial
  | i :: is =>
    have := decidableAlways step P (step s i) is
    inferInstanceAs (Decidable (P s i ∧ Always step P (step s i) is))

@[simp] theorem always_nil (step : σ → ι → σ) (P : σ → ι → Prop) (s : σ) : Always step P s [] := trivial

/-- What always holds holds along both parts of a run. -/
theorem always_append {step : σ → ι → σ} {P : σ → ι → Prop} {s : σ} {first second : List ι} :
    Always step P s (first ++ second) ↔ Always step P s first ∧ Always step P (run step s first) second := by
  induction first generalizing s with
  | nil => simp
  | cons i first ih => simp [Always, ih, run_cons, and_assoc]

@[simp] theorem always_concat {step : σ → ι → σ} {P : σ → ι → Prop} {s : σ} {is : List ι} {i : ι} :
    Always step P s (is ++ [i]) ↔ Always step P s is ∧ P (run step s is) i := by
  simp [always_append, Always]

/-- What these inputs keep to in any state, they keep to in the states of the run. -/
theorem always_of_forall {step : σ → ι → σ} {P : σ → ι → Prop} {s : σ} {is : List ι} (h : ∀ s, ∀ i ∈ is, P s i) :
    Always step P s is := by
  induction is generalizing s with
  | nil => trivial
  | cons i is ih => exact ⟨h s i List.mem_cons_self, ih fun s j hj => h s j (List.mem_cons_of_mem i hj)⟩

/-- A property of these inputs in every state reached from `s` holds along a run from such a state. -/
theorem always_of_reached {step : σ → ι → σ} {P : σ → ι → Prop} {s : σ} {is : List ι}
    (h : ∀ before, ∀ i ∈ is, P (run step s before) i) (before : List ι) : Always step P (run step s before) is := by
  induction is generalizing before with
  | nil => trivial
  | cons i is ih =>
    refine ⟨h before i List.mem_cons_self, ?_⟩
    rw [← run_concat step s before i]
    exact ih (fun more j hj => h more j (List.mem_cons_of_mem i hj)) (before ++ [i])

/-- A property of the last step of every run that is a prefix of this one holds along this one. -/
theorem always_of_prefix {step : σ → ι → σ} {P : σ → ι → Prop} {s : σ} {is : List ι}
    (h : ∀ before i, before ++ [i] <+: is → P (run step s before) i) : Always step P s is := by
  induction is using List.reverseRecOn with
  | nil => trivial
  | append_singleton is i ih =>
    rw [always_concat]
    exact ⟨ih fun before j hfront => h before j (hfront.trans (List.prefix_append ..)), h is i List.prefix_rfl⟩

/-- A property of the states of a run, which an invariant gives, holds in all of them exactly if every step keeps the
invariant: what the steps have to meet is sufficient for the invariant and necessary for the property. -/
theorem states_iff {step : σ → ι → σ} {R I : σ → Prop} {C : σ → ι → Prop} (hgives : ∀ s, I s → R s)
    (hkeeps : ∀ s i, I s → C s i → I (step s i)) (honly : ∀ s i, I s → R (step s i) → C s i) {s : σ} (h : I s)
    (is : List ι) : (∀ n, R (run step s (is.take n))) ↔ Always step C s is := by
  induction is generalizing s with
  | nil =>
    refine iff_of_true (fun n => ?_) trivial
    rw [List.take_nil]
    exact hgives s h
  | cons i is ih =>
    constructor
    · intro hall
      have hfirst := honly s i h (hall 1)
      exact ⟨hfirst, (ih (hkeeps s i h hfirst)).mp fun n => hall (n + 1)⟩
    · rintro ⟨hfirst, hlater⟩ n
      cases n with
      | zero => exact hgives s h
      | succ n => exact (ih (hkeeps s i h hfirst)).mpr hlater n

/-- The latch rule. A property that no step restores once it is lost, and that a step keeps exactly if the
step meets a condition, holds after a run exactly if every step of the run meets it. -/
theorem latch_iff {step : σ → ι → σ} {G : σ → Prop} {C : σ → ι → Prop} (hlost : ∀ s i, ¬ G s → ¬ G (step s i))
    (hkeeps : ∀ s i, G s → (G (step s i) ↔ C s i)) {s : σ} (h : G s) (is : List ι) : G (run step s is) ↔ Always step C s is := by
  induction is using List.reverseRecOn with
  | nil => exact iff_of_true h trivial
  | append_singleton is i ih =>
    rw [run_concat, always_concat, ← ih]
    by_cases hbefore : G (run step s is)
    · rw [hkeeps _ i hbefore]
      exact (and_iff_right hbefore).symm
    · exact iff_of_false (hlost _ i hbefore) fun hboth => hbefore hboth.1

/-- The counting rule. A counter that each step raises by at most a weight, and by all of it
exactly if the step meets a condition, has counted all of the weights exactly if every step
of the run meets it. -/
theorem counted_iff {step : σ → ι → σ} {count : σ → Nat} {weight : σ → ι → Nat} {C : σ → ι → Prop} {s : σ}
    (hstep : ∀ before i, count (step (run step s before) i) ≤ count (run step s before) + weight (run step s before) i ∧
      (count (step (run step s before) i) = count (run step s before) + weight (run step s before) i ↔
        C (run step s before) i)) (is : List ι) :
    count (run step s is) ≤ count s + total step weight s is ∧
      (count (run step s is) = count s + total step weight s is ↔ Always step C s is) := by
  induction is using List.reverseRecOn with
  | nil => simp
  | append_singleton is i ih =>
    obtain ⟨hle, hiff⟩ := hstep is i
    rw [run_concat, total_concat, always_concat, ← ih.2, ← hiff]
    omega

/-- The invariant rule for runs whose every step meets a condition. -/
theorem invariant_of_always {step : σ → ι → σ} {C : σ → ι → Prop} {s : σ} (P : List ι → σ → Prop) (hinit : P [] s)
    (hstep : ∀ is i, P is (run step s is) → C (run step s is) i → P (is ++ [i]) (step (run step s is) i))
    {is : List ι} (h : Always step C s is) : P is (run step s is) := by
  induction is using List.reverseRecOn with
  | nil => exact hinit
  | append_singleton is i ih =>
    obtain ⟨hbefore, hlast⟩ := always_concat.mp h
    rw [run_concat]
    exact hstep is i (ih hbefore) hlast

/-- The potential rule. If each step keeps an invariant and pays what it costs from what it gains and from a
potential, a run has cost no more than it has gained and the potential it started with. -/
theorem total_le_of_potential {step : σ → ι → σ} {I : σ → Prop} {C : ι → Prop} {w : σ → Nat} {cost gain : σ → ι → Nat}
    (hstep : ∀ s i, I s → C i → I (step s i) ∧ cost s i + w (step s i) ≤ w s + gain s i) {s : σ} (h : I s) {is : List ι}
    (hall : ∀ i ∈ is, C i) :
    I (run step s is) ∧ total step cost s is + w (run step s is) ≤ w s + total step gain s is := by
  induction is generalizing s with
  | nil => exact ⟨h, Nat.le_of_eq (Nat.zero_add _)⟩
  | cons i is ih =>
    obtain ⟨hnext, hpaid⟩ := hstep s i h (hall i List.mem_cons_self)
    obtain ⟨hlast, hrest⟩ := ih hnext fun j hj => hall j (List.mem_cons_of_mem i hj)
    rw [run_cons]
    refine ⟨hlast, ?_⟩
    unfold total
    omega

end Trace
