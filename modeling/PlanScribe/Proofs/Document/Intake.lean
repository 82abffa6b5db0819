import PlanScribe.Storage.Sink
import Mathlib.Data.List.Basic

/-!
# What a sink takes

However few bytes a sink takes at once, it stores in the end as many of the bytes it is offered as
it has room for, in order, unless it takes none at all. It is flushed only when all are stored.
-/
namespace PlanScribe.Sink

/-- How many of the bytes offered are stored in the end. -/
def capacity (sink : Sink) (offered : Nat) : Nat :=
  if sink.chunk = some 0 then 0
  else match sink.limit with
    | some limit => min offered (limit - sink.stored.length)
    | none => offered

/-- The sink takes all of the bytes. -/
def TakesAll (sink : Sink) (bytes : Bytes) : Prop := sink.capacity bytes.length = bytes.length

instance (sink : Sink) (bytes : Bytes) : Decidable (sink.TakesAll bytes) :=
  inferInstanceAs (Decidable (_ = _))

/-- The sink with more bytes stored. -/
def store (sink : Sink) (bytes : Bytes) : Sink := { sink with stored := sink.stored ++ bytes }

variable (sink : Sink)

theorem capacity_le (offered : Nat) : sink.capacity offered ≤ offered := by
  unfold capacity
  split_ifs
  · exact Nat.zero_le _
  · cases sink.limit with
    | none => exact Nat.le_refl _
    | some limit => exact Nat.min_le_left _ _

/-- A sink that takes nothing of some bytes has no room for any of them. -/
theorem capacity_of_accepts_eq_zero {offered : Nat} (hoffered : 0 < offered)
    (h : sink.accepts offered = 0) : sink.capacity offered = 0 := by
  unfold accepts at h
  unfold capacity
  split_ifs with hchunk
  · rfl
  · have hpositive : 0 < sink.chunk.getD offered := by
      cases hc : sink.chunk with
      | none => exact hoffered
      | some chunk =>
        have hne : chunk ≠ 0 := fun h0 => hchunk (by rw [hc, h0])
        exact Nat.pos_of_ne_zero hne
    cases hl : sink.limit with
    | none =>
      rw [hl] at h
      simp only at h
      omega
    | some limit =>
      rw [hl] at h
      simp only at h ⊢
      omega

/-- What is stored first is a part of what is stored in the end. -/
theorem accepts_le_capacity (offered : Nat) : sink.accepts offered ≤ sink.capacity offered := by
  unfold accepts capacity
  split_ifs with hchunk
  · rw [hchunk]
    simp
  · cases sink.limit with
    | none => exact Nat.min_le_left _ _
    | some limit =>
      simp only
      omega

/-- Storing some of the bytes leaves that much less room for the others. -/
theorem capacity_store (first rest : Bytes)
    (h : first.length ≤ sink.capacity (first.length + rest.length)) :
    (sink.store first).capacity rest.length
      = sink.capacity (first.length + rest.length) - first.length := by
  unfold capacity store at *
  simp only [List.length_append]
  split_ifs at h ⊢ with hchunk
  · omega
  · cases hl : sink.limit with
    | none =>
      rw [hl] at h
      simp only at h ⊢
      omega
    | some limit =>
      rw [hl] at h
      simp only at h ⊢
      omega

/-- What is stored after a first part adds up to what is stored of all the bytes. -/
theorem store_in_parts (bytes : Bytes) (n : Nat) (h : n ≤ sink.capacity bytes.length) :
    let used := sink.store (bytes.take n)
    let rest := bytes.drop n
    used.store (rest.take (used.capacity rest.length))
        = sink.store (bytes.take (sink.capacity bytes.length)) ∧
      (used.TakesAll rest ↔ sink.TakesAll bytes) := by
  intro used rest
  have hcap := sink.capacity_le bytes.length
  have hfirst : (bytes.take n).length = n := by
    rw [List.length_take]
    omega
  have hrest : rest.length = bytes.length - n := List.length_drop
  have hroom : used.capacity rest.length = sink.capacity bytes.length - n := by
    have hstored := sink.capacity_store (bytes.take n) rest
    have hsum : n + rest.length = bytes.length := by omega
    rw [hfirst, hsum] at hstored
    exact hstored h
  constructor
  · have htake : bytes.take n ++ rest.take (sink.capacity bytes.length - n)
        = bytes.take (sink.capacity bytes.length) := by
      rw [← List.take_add]
      congr 1
      omega
    rw [hroom]
    simp only [used, store, List.append_assoc, htake]
  · unfold TakesAll
    rw [hroom, hrest]
    omega

theorem feed_of_refused (attempts : Nat) {bytes : Bytes} (hne : bytes ≠ [])
    (h : sink.accepts bytes.length = 0) : feed (attempts + 1) sink bytes = (sink, false) := by
  obtain ⟨byte, rest, rfl⟩ := List.exists_cons_of_ne_nil hne
  rw [feed, h]
  exact hne

theorem feed_of_taken (attempts : Nat) {bytes : Bytes} {taken : Nat} (hne : bytes ≠ [])
    (h : sink.accepts bytes.length = taken + 1) :
    feed (attempts + 1) sink bytes
      = feed attempts (sink.store (bytes.take (taken + 1))) (bytes.drop (taken + 1)) := by
  obtain ⟨byte, rest, rfl⟩ := List.exists_cons_of_ne_nil hne
  rw [feed, h]
  · rfl
  · exact hne

theorem feed_nil (attempts : Nat) :
    feed attempts sink []
      = (sink.store (([] : Bytes).take (sink.capacity 0)), decide (sink.TakesAll [])) := by
  have hall : sink.TakesAll [] := Nat.le_zero.mp (sink.capacity_le 0)
  cases attempts <;> simp [feed, store, hall]

/-- Offering the bytes often enough stores as many as there is room for. -/
theorem feed_eq (attempts : Nat) (bytes : Bytes) (h : bytes.length ≤ attempts) :
    feed attempts sink bytes
      = (sink.store (bytes.take (sink.capacity bytes.length)), decide (sink.TakesAll bytes)) := by
  induction attempts generalizing sink bytes with
  | zero =>
    obtain rfl := List.length_eq_zero_iff.mp (Nat.le_zero.mp h)
    exact sink.feed_nil 0
  | succ attempts ih =>
    by_cases hne : bytes = []
    · rw [hne]
      exact sink.feed_nil (attempts + 1)
    · have hlength := List.length_pos_of_ne_nil hne
      cases haccepts : sink.accepts bytes.length with
      | zero =>
        have hcapacity := sink.capacity_of_accepts_eq_zero hlength haccepts
        have hpart : ¬ sink.TakesAll bytes := by
          unfold TakesAll
          omega
        rw [sink.feed_of_refused attempts hne haccepts]
        simp [hcapacity, store, hpart]
      | succ taken =>
        have hle := sink.accepts_le_capacity bytes.length
        rw [haccepts] at hle
        obtain ⟨hstored, hall⟩ := sink.store_in_parts bytes (taken + 1) hle
        have hrest : (bytes.drop (taken + 1)).length ≤ attempts := by
          rw [List.length_drop]
          omega
        rw [sink.feed_of_taken attempts hne haccepts, ih _ _ hrest, hstored]
        exact Prod.ext rfl (decide_eq_decide.mpr hall)

/-- An attempt to send bytes to a sink: what is stored is a part of them from the start, and a flush
is tried once all are stored. -/
structure Received (before : Sink) (bytes : Bytes) (after : Sink) (done : Bool) : Prop where
  stored : after.stored = before.stored ++ bytes.take (before.capacity bytes.length)
  flushes : after.flushes = before.flushes + if before.TakesAll bytes then 1 else 0
  done : done = true ↔ before.TakesAll bytes ∧ before.failFlush = false

theorem received_deliver (bytes : Bytes) :
    sink.Received bytes (sink.deliver bytes).1 (sink.deliver bytes).2 := by
  unfold deliver writeAll
  rw [sink.feed_eq _ _ (Nat.le_refl _)]
  by_cases hall : sink.TakesAll bytes
  · constructor <;> simp [hall, store, flush]
  · constructor <;> simp [hall, store]

/-- Everything is stored exactly if the sink takes all of the bytes. -/
theorem Received.stored_eq_iff {before after : Sink} {bytes : Bytes} {done : Bool}
    (h : before.Received bytes after done) :
    after.stored = before.stored ++ bytes ↔ before.TakesAll bytes := by
  have hle := before.capacity_le bytes.length
  rw [h.stored, List.append_cancel_left_eq]
  constructor
  · intro htake
    have hlength := congrArg List.length htake
    rw [List.length_take] at hlength
    unfold TakesAll
    omega
  · intro hall
    rw [hall, List.take_length]

end PlanScribe.Sink
