import Kcp.Network.Round

/-! No reachable state is stuck: whatever has been lost, repeated or reordered, flushing,
handing over and receiving can deliver everything, in both directions. -/

open kcp_core.protocol kcp_core.config kcp_core.error kcp_core.engine
open kcp_core.engine.KcpEngine Trace

namespace kcp_core.network

/-- What is kept twice is kept. -/
theorem Kept.trans {pair : Pair} {first second third : Net} (h : Kept pair first second) (h' : Kept pair second third) :
    Kept pair first third :=
  ⟨h'.sound, h'.sent_a.trans h.sent_a, h'.refused_a.trans h.refused_a, h'.sent_b.trans h.sent_b,
    h'.refused_b.trans h.refused_b⟩

theorem Kept.swap {pair : Pair} {before net : Net} (h : Kept pair before net) : Kept pair.swap before.swap net.swap :=
  ⟨h.sound.swap, h.sent_b, h.refused_b, h.sent_a, h.refused_a⟩

/-! ### One side -/

/-- Between rounds, after `before`: the backlog of `a` has become smaller, or it is as it was
and `Q` holds. -/
structure Forward (pair : Pair) (before : Net) (Q : Net → Prop) (net : Net) : Prop where
  kept : Kept pair before net
  turn : Turn net.a.engine net.b.engine
  other : net.b.engine.backlog ≤ before.b.engine.backlog
  lower : net.a.engine.backlog < before.a.engine.backlog ∨ net.a.engine.backlog = before.a.engine.backlog ∧ Q net

/-- From `Q` one round, at the right time, makes the backlog smaller or leads to `R`. -/
theorem Forward.next {pair : Pair} {before net : Net} {Q R : Net → Prop} (hmatched : pair.Matched)
    (h : Leads Net.step Serves net (Forward pair before Q))
    (hnext : ∀ mid, Turn mid.a.engine mid.b.engine → mid.a.engine.backlog = before.a.engine.backlog → Q mid → R mid ∨
      ∃ clk, ∀ net', Round clk mid.a.engine mid.b.engine net'.a.engine net'.b.engine →
        net'.a.engine.backlog < mid.a.engine.backlog ∨ R net') :
    Leads Net.step Serves net (Forward pair before R) := by
  refine h.trans ?_
  rintro mid ⟨hkept, hturn, hother, hlower⟩
  rcases hlower with hless | ⟨hsame, hq⟩
  · exact .now ⟨hkept, hturn, hother, .inl hless⟩
  · rcases hnext mid hturn hsame hq with hr | ⟨clk, hround⟩
    · exact .now ⟨hkept, hturn, hother, .inr ⟨hsame, hr⟩⟩
    · refine (round hmatched hkept.sound hturn clk).mono ?_
      rintro net' ⟨hkept', hround'⟩
      obtain ⟨hle, hle'⟩ := hround'.backlog_le
      refine ⟨hkept.trans hkept', hround'.turn hturn, hle'.trans hother, ?_⟩
      rcases hround net' hround' with hless | hr
      · exact .inl (by omega)
      · rcases Nat.lt_or_ge net'.a.engine.backlog before.a.engine.backlog with hless | hge
        · exact .inl hless
        · exact .inr ⟨by omega, hr⟩

end kcp_core.network
