import Mathlib.Data.List.Nodup

/-!
# Row locks

A lock table says which transaction holds which key; by its field a key has at most one holder. `acquire` succeeds on a
key that is free or already held by the same transaction, `release` gives up everything a transaction holds. The rules
say who holds what afterwards.
-/

set_option autoImplicit false

namespace Transition

universe u

/-- A lock table. -/
structure LockTable (κ : Type u) where
  entries : List (κ × Nat)
  exclusive : (entries.map Prod.fst).Nodup

namespace LockTable

variable {κ : Type u}

/-- No key is locked. -/
def empty : LockTable κ := ⟨[], List.nodup_nil⟩

/-- The transaction holds the lock of the key. -/
def Holds (L : LockTable κ) (k : κ) (t : Nat) : Prop := (k, t) ∈ L.entries

/-- What is left when a transaction ends. -/
def release (L : LockTable κ) (t : Nat) : LockTable κ where
  entries := L.entries.filter (·.2 ≠ t)
  exclusive := L.exclusive.sublist (List.filter_sublist.map _)

variable [DecidableEq κ]

instance (L : LockTable κ) (k : κ) (t : Nat) : Decidable (L.Holds k t) :=
  inferInstanceAs (Decidable ((k, t) ∈ L.entries))

/-- Nobody holds the lock of the key. -/
def isFree (L : LockTable κ) (k : κ) : Bool := !(L.entries.map Prod.fst).contains k

/-- Take the lock of a key, which nobody else may hold. -/
def acquire (L : LockTable κ) (k : κ) (t : Nat) : Option (LockTable κ) :=
  if L.Holds k t then some L
  else if h : k ∈ L.entries.map Prod.fst then none
  else some ⟨(k, t) :: L.entries, List.nodup_cons.mpr ⟨h, L.exclusive⟩⟩

/-- Take the locks of several keys. -/
def acquireAll (t : Nat) : List κ → LockTable κ → Option (LockTable κ)
  | [], L => some L
  | k :: ks, L => (L.acquire k t).bind (acquireAll t ks)

section

omit [DecidableEq κ]

/-- **A key has one holder.** -/
theorem Holds.unique {L : LockTable κ} {k : κ} {t t' : Nat} (h : L.Holds k t) (h' : L.Holds k t') : t = t' := by
  have := List.inj_on_of_nodup_map L.exclusive h h' rfl
  exact congrArg Prod.snd this

theorem holds_release {L : LockTable κ} {k : κ} {t t' : Nat} :
    (L.release t).Holds k t' ↔ L.Holds k t' ∧ t' ≠ t := by
  simp [Holds, release]

end

theorem holds_acquire {L L' : LockTable κ} {k k' : κ} {t t' : Nat} (h : L.acquire k t = some L') :
    L'.Holds k' t' ↔ L.Holds k' t' ∨ k' = k ∧ t' = t := by
  unfold acquire at h
  split at h
  · rename_i hk
    obtain rfl := Option.some.inj h
    refine ⟨.inl, ?_⟩
    rintro (h | ⟨rfl, rfl⟩)
    · exact h
    · exact hk
  · split at h
    · cases h
    · obtain rfl := Option.some.inj h
      simp [Holds, or_comm]

theorem holds_acquireAll {ks : List κ} {L L' : LockTable κ} {k' : κ} {t t' : Nat}
    (h : acquireAll t ks L = some L') : L'.Holds k' t' ↔ L.Holds k' t' ∨ k' ∈ ks ∧ t' = t := by
  induction ks generalizing L with
  | nil =>
    obtain rfl := Option.some.inj h
    simp
  | cons k ks ih =>
    obtain ⟨M, hM, h⟩ := Option.bind_eq_some_iff.mp h
    rw [ih h, holds_acquire hM, List.mem_cons, or_assoc, or_and_right]

end LockTable

end Transition
