import Mathlib.Data.List.Sort
import Mathlib.Order.Lattice

/-!
# Queries on a table that grows

`query p key ties rows` is the result of a SELECT with the condition `p`, in the order of `key`. In which order rows
with the same key come is open, and may be another one in each query: `ties` stands for it. A table that has more rows
gives a result that has more rows (`query_subperm`), and columns that neither the condition nor the key reads can be
changed before or after the query (`query_map_perm`). Where no two rows have the same key, the results keep their
order (`query_sublist`, `query_map`). So when rows have come in and such columns have changed, the old result is found
in the new one (`Grown.query`).
-/

set_option autoImplicit false

namespace Transition

universe u v

/-- An arrangement of the rows of a result before they are sorted. -/
structure TieOrder (α : Type u) where
  arrange : List α → List α
  perm : ∀ rows, (arrange rows).Perm rows

/-- Rows with the same key in the order of the table. -/
def TieOrder.table (α : Type u) : TieOrder α := ⟨id, fun _ => .refl _⟩

variable {α : Type u} {κ : Type v} [LinearOrder κ] {p : α → Bool} {key : α → κ} {ties ties' : TieOrder α}
  {rows rows' rows'' : List α}

/-- The rows with the condition, in the order of the key. -/
def query (p : α → Bool) (key : α → κ) (ties : TieOrder α) (rows : List α) : List α :=
  (ties.arrange (rows.filter p)).insertionSort fun a b => key a ≤ key b

theorem query_perm : (query p key ties rows).Perm (rows.filter p) :=
  (List.perm_insertionSort _ _).trans (ties.perm _)

theorem mem_query {a : α} : a ∈ query p key ties rows ↔ a ∈ rows ∧ p a = true := by
  rw [query_perm.mem_iff, List.mem_filter]

theorem pairwise_query : (query p key ties rows).Pairwise fun a b => key a ≤ key b := by
  have : Std.Total fun a b : α => key a ≤ key b := ⟨fun a b => le_total (key a) (key b)⟩
  have : IsTrans α fun a b => key a ≤ key b := ⟨fun _ _ _ => le_trans⟩
  exact List.pairwise_insertionSort _ _

theorem query_subperm (h : rows.Sublist rows') : (query p key ties rows).Subperm (query p key ties' rows') :=
  (query_perm.subperm.trans (h.filter p).subperm).trans query_perm.symm.subperm

theorem subperm_map {β : Type v} {l l' : List α} (h : l.Subperm l') (f : α → β) : (l.map f).Subperm (l'.map f) := by
  obtain ⟨m, hperm, hsub⟩ := h
  exact ⟨m.map f, hperm.map f, hsub.map f⟩

/-- What neither the condition nor the key reads can be changed afterwards. -/
theorem query_map_perm {g : α → α} (hp : ∀ a, p (g a) = p a) (rows : List α) :
    (query p key ties' (rows.map g)).Perm ((query p key ties rows).map g) := by
  have hfilter : (rows.map g).filter p = (rows.filter p).map g := by
    rw [List.filter_map]
    exact congrArg _ (List.filter_congr fun a _ => hp a)
  exact (hfilter ▸ query_perm).trans (query_perm.symm.map g)

/-! ## No two rows with the same key -/

section

omit [LinearOrder κ]

/-- No two rows with the condition have the same key. -/
def Untied (p : α → Bool) (key : α → κ) (rows : List α) : Prop := ((rows.filter p).map key).Nodup

theorem untied_singleton (a : α) : Untied p key [a] :=
  List.Nodup.sublist (List.filter_sublist.map key) (List.nodup_singleton (key a))

theorem Untied.of_sublist (h : Untied p key rows') (hsub : rows.Sublist rows') : Untied p key rows :=
  List.Nodup.sublist ((hsub.filter p).map key) h

theorem untied_map_iff {g : α → α} (hp : ∀ a, p (g a) = p a) (hk : ∀ a, key (g a) = key a) :
    Untied p key (rows.map g) ↔ Untied p key rows := by
  have hsame : ((rows.map g).filter p).map key = (rows.filter p).map key := by
    rw [List.filter_map, List.map_map]
    exact (congrArg _ (List.filter_congr fun a _ => hp a)).trans (List.map_congr_left fun a _ => hk a)
  rw [Untied, Untied, hsame]

end

/-- Then the result is sorted strictly. -/
theorem Untied.pairwise (h : Untied p key rows) : (query p key ties rows).Pairwise fun a b => key a < key b := by
  have hnodup : ((query p key ties rows).map key).Nodup := (query_perm.map key).nodup_iff.mpr h
  exact (pairwise_query.and (List.pairwise_map.mp hnodup)).imp fun hab => lt_of_le_of_ne hab.1 hab.2

theorem sublist_of_subperm {l l' : List α} (h : l.Subperm l') (hl : l.Pairwise fun a b => key a < key b)
    (hl' : l'.Pairwise fun a b => key a < key b) : l.Sublist l' := by
  have : Std.Antisymm fun a b : α => key a < key b := ⟨fun _ _ hab hba => absurd hab (lt_asymm hba)⟩
  exact List.sublist_of_subperm_of_pairwise h hl hl'

theorem query_sublist (hrows : Untied p key rows') (h : rows.Sublist rows') :
    (query p key ties rows).Sublist (query p key ties' rows') :=
  sublist_of_subperm (query_subperm h) (hrows.of_sublist h).pairwise hrows.pairwise

/-- Then the order of the ties makes no difference. -/
theorem Untied.query_eq (h : Untied p key rows) (ties ties' : TieOrder α) :
    query p key ties rows = query p key ties' rows :=
  (query_perm.trans query_perm.symm).eq_of_pairwise (fun _ _ _ _ hab hba => absurd hab (lt_asymm hba)) h.pairwise
    h.pairwise

theorem query_map {g : α → α} (hrows : Untied p key rows) (hp : ∀ a, p (g a) = p a) (hk : ∀ a, key (g a) = key a) :
    query p key ties' (rows.map g) = (query p key ties rows).map g := by
  have hleft : (query p key ties' (rows.map g)).Pairwise fun a b => key a < key b :=
    ((untied_map_iff hp hk).mpr hrows).pairwise
  have hright : ((query p key ties rows).map g).Pairwise fun a b => key a < key b := by
    rw [List.pairwise_map]
    exact hrows.pairwise.imp fun {a b} hab => by rwa [hk, hk]
  exact (query_map_perm hp rows).eq_of_pairwise (fun a b _ _ hab hba => absurd hab (lt_asymm hba)) hleft hright

/-! ## Tables that have grown -/

/-- Rows have come in, and each row has changed as `K` allows. -/
def Grown (K : α → α → Prop) (rows rows' : List α) : Prop :=
  ∃ g : α → α, (∀ a, K a (g a)) ∧ (rows.map g).Sublist rows'

namespace Grown

variable {K : α → α → Prop}

theorem refl (h : ∀ a, K a a) (rows : List α) : Grown K rows rows := ⟨id, h, by rw [List.map_id]⟩

theorem of_sublist (hK : ∀ a, K a a) (h : rows.Sublist rows') : Grown K rows rows' := ⟨id, hK, by rwa [List.map_id]⟩

theorem of_map {g : α → α} (h : ∀ a, K a (g a)) (rows : List α) : Grown K rows (rows.map g) :=
  ⟨g, h, List.Sublist.refl _⟩

theorem trans (hK : ∀ a b c, K a b → K b c → K a c) (h : Grown K rows rows') (h' : Grown K rows' rows'') :
    Grown K rows rows'' := by
  obtain ⟨g, hg, hsub⟩ := h
  obtain ⟨g', hg', hsub'⟩ := h'
  refine ⟨g' ∘ g, fun a => hK a (g a) _ (hg a) (hg' (g a)), ?_⟩
  rw [← List.map_map]
  exact (hsub.map g').trans hsub'

/-- **The result of a query stays, with what has changed in its rows**, and in its order where no two rows have the same
key. -/
theorem query (ties ties' : TieOrder α) (h : Grown K rows rows') (hp : ∀ a b, K a b → p b = p a)
    (hk : ∀ a b, K a b → key b = key a) :
    ∃ g : α → α, (∀ a, K a (g a)) ∧ ((query p key ties rows).map g).Subperm (query p key ties' rows') ∧
      (Untied p key rows' → ((query p key ties rows).map g).Sublist (query p key ties' rows')) := by
  obtain ⟨g, hg, hsub⟩ := h
  have hpg : ∀ a, p (g a) = p a := fun a => hp a (g a) (hg a)
  have hkg : ∀ a, key (g a) = key a := fun a => hk a (g a) (hg a)
  have hmap : (Transition.query p key ties (rows.map g)).Perm ((Transition.query p key ties rows).map g) :=
    query_map_perm hpg rows
  refine ⟨g, hg, hmap.symm.subperm.trans (query_subperm hsub), fun hrows => ?_⟩
  have hbefore : Untied p key rows := (untied_map_iff hpg hkg).mp (hrows.of_sublist hsub)
  have heq : Transition.query p key ties (rows.map g) = (Transition.query p key ties rows).map g :=
    query_map hbefore hpg hkg
  rw [← heq]
  exact query_sublist hrows hsub

end Grown

end Transition
