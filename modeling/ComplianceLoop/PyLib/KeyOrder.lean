import ComplianceLoop.PyLib.Value

/-!
# When a value survives the round trip

`json.dumps(sort_keys=True)` sorts the keys of a dict as Python objects, `json.loads` gives back strings. `KeysAgree`
says that at every dict of a value the first order is the strict order of the second. `dumps_loads_iff`: writing the
value that was read back gives the same text exactly when the keys agree.
-/

set_option autoImplicit false

namespace PyLib

variable {D : Type} [FloatOps D]

/-- `sorted(d)`, as `sort_keys` sorts the items. -/
def sortKeys (ks : List (PyKey D)) : Except PyExc (List (PyKey D)) :=
  (sortItems (ks.map fun k => (k, ()))).map (·.map Prod.fst)

/-- The keys in their Python order have strictly increasing strings once read back. -/
def NamesIncrease (ks : List (PyKey D)) : Prop :=
  ∀ s, sortKeys ks = .ok s → (s.map PyKey.jsonName).Pairwise (· < ·)

namespace PyVal

mutual

/-- At every dict of the value the order of the keys is the order of the strings they become. -/
def KeysAgree : PyVal D → Prop
  | .list xs => KeysAgreeElems xs
  | .tuple xs => KeysAgreeElems xs
  | .dict items => NamesIncrease (items.map Prod.fst) ∧ KeysAgreeItems items
  | .enum v => KeysAgree v
  | _ => True

def KeysAgreeElems : List (PyVal D) → Prop
  | [] => True
  | x :: xs => KeysAgree x ∧ KeysAgreeElems xs

def KeysAgreeItems : List (PyKey D × PyVal D) → Prop
  | [] => True
  | (_, v) :: items => KeysAgree v ∧ KeysAgreeItems items

end

theorem keysAgreeItems_iff {items : List (PyKey D × PyVal D)} : KeysAgreeItems items ↔ ∀ p ∈ items, p.2.KeysAgree := by
  induction items with
  | nil => simp [KeysAgreeItems]
  | cons p items ih => rw [KeysAgreeItems, ih, List.forall_mem_cons]

/-! ## The members that were written -/

theorem writeMembers_spec {l : List (PyKey D × Except PyExc (Json D))} {ms : List (PyStr × Json D)}
    (h : writeMembers l = .ok ms) :
    (ms.map fun m => joinPairs m.1) = l.map (·.1.jsonName) ∧ l.map (·.2) = ms.map fun m => .ok m.2 := by
  induction l generalizing ms with
  | nil =>
    obtain rfl : [] = ms := by simpa [writeMembers] using h
    exact ⟨rfl, rfl⟩
  | cons p l ih =>
    obtain ⟨k, v⟩ := p
    rw [writeMembers] at h
    obtain ⟨n, hn, h⟩ := bind_eq_ok.mp h
    obtain ⟨d, rfl, h⟩ := bind_eq_ok.mp h
    obtain ⟨ms', hms, rfl⟩ := map_eq_ok.mp h
    obtain ⟨h1, h2⟩ := ih hms
    refine ⟨?_, ?_⟩
    · simp only [List.map_cons, h1, PyKey.jsonName, hn]
    · simp only [List.map_cons, h2]

/-- What a dict is written as: its items in the order of the keys, each with its name and its document. -/
theorem encode_dict {items : List (PyKey D × PyVal D)} {d : Json D} (h : encode (.dict items) = .ok d) :
    ∃ s ms, sortItems items = .ok s ∧ d = .obj ms ∧ (ms.map fun m => joinPairs m.1) = s.map (·.1.jsonName) ∧
      (s.map fun p => encode p.2) = ms.map fun m => .ok m.2 := by
  rw [encode, encodeItems_eq_map, sortItems_map] at h
  obtain ⟨s', hs', h⟩ := bind_eq_ok.mp h
  obtain ⟨s, hs, rfl⟩ := map_eq_ok.mp hs'
  obtain ⟨ms, hms, rfl⟩ := map_eq_ok.mp h
  obtain ⟨h1, h2⟩ := writeMembers_spec hms
  rw [List.map_map] at h1 h2
  exact ⟨s, ms, hs, rfl, h1, h2⟩

/-- The sorted keys of a dict are the keys of its sorted items. -/
theorem sortKeys_of_sortItems {items s : List (PyKey D × PyVal D)} (h : sortItems items = .ok s) :
    sortKeys (items.map Prod.fst) = .ok (s.map Prod.fst) := by
  have := sortItems_map (fun _ => ()) items
  rw [h] at this
  rw [sortKeys, List.map_map,
    show ((fun k => (k, ())) ∘ Prod.fst) = fun p : PyKey D × PyVal D => (p.1, ()) from rfl, this]
  simp [Except.map]

mutual

/-- Every integer that was written fits. -/
theorem fits_encode : ∀ {v : PyVal D} {d : Json D}, encode v = .ok d → d.Fits
  | .none, _, h | .bool _, _, h | .float _, _, h | .str _, _, h | .datetime _, _, h | .uuid _, _, h => by
    cases h
    trivial
  | .int i, d, h => by
    rw [encode] at h
    split at h <;> cases h
    assumption
  | .list xs, _, h | .tuple xs, _, h => by
    obtain ⟨ds, hds, rfl⟩ := map_eq_ok.mp h
    exact fits_encodeElems hds
  | .dict items, _, h => by
    obtain ⟨s, ms, hs, rfl, -, hv⟩ := encode_dict h
    refine Json.fitsMembers_iff.mpr fun m hm => ?_
    have hmem : Except.ok m.2 ∈ s.map fun p => encode p.2 := hv ▸ List.mem_map_of_mem hm
    obtain ⟨p, hp, hpm⟩ := List.mem_map.mp hmem
    exact fits_encodeItems items p ((sortItems_perm hs).mem_iff.mp hp) hpm
  | .enum v, _, h => fits_encode (v := v) h
  | .dataclass _ _, _, h | .object _ _, _, h | .foreign _, _, h => by cases h

theorem fits_encodeElems : ∀ {xs : List (PyVal D)} {ds : List (Json D)}, encodeElems xs = .ok ds → Json.FitsElems ds
  | [], _, h => by
    cases h
    trivial
  | x :: xs, _, h => by
    obtain ⟨d, hd, h⟩ := bind_eq_ok.mp h
    obtain ⟨ds, hds, rfl⟩ := map_eq_ok.mp h
    exact ⟨fits_encode hd, fits_encodeElems hds⟩

theorem fits_encodeItems : ∀ (items : List (PyKey D × PyVal D)), ∀ p ∈ items,
    ∀ {d : Json D}, encode p.2 = .ok d → d.Fits
  | [], _, hp => absurd hp List.not_mem_nil
  | (_, v) :: items, p, hp => by
    rcases List.mem_cons.mp hp with rfl | hp
    · exact fits_encode (v := v)
    · exact fits_encodeItems items p hp

end

mutual

/-- **The document of a value is sorted, once joined, exactly when the keys of the value agree.** -/
theorem sorted_joined_iff : ∀ {v : PyVal D} {d : Json D}, encode v = .ok d → (d.joined.Sorted ↔ v.KeysAgree)
  | .none, _, h | .bool _, _, h | .float _, _, h | .str _, _, h | .datetime _, _, h | .uuid _, _, h => by
    cases h
    exact Iff.rfl
  | .int i, d, h => by
    rw [encode] at h
    split at h <;> cases h
    exact Iff.rfl
  | .list xs, _, h | .tuple xs, _, h => by
    obtain ⟨ds, hds, rfl⟩ := map_eq_ok.mp h
    exact sortedElems_joined_iff hds
  | .dict items, _, h => by
    obtain ⟨s, ms, hs, rfl, hk, hv⟩ := encode_dict h
    have hkeys : ((Json.joinedMembers ms).map Prod.fst).Pairwise (· < ·) ↔ NamesIncrease (items.map Prod.fst) := by
      have hj : (Json.joinedMembers ms).map Prod.fst = (s.map Prod.fst).map PyKey.jsonName := by
        rw [List.map_map, Json.joinedMembers_eq_map, List.map_map]
        exact hk
      rw [hj]
      refine ⟨fun hp t ht => ?_, fun hp => hp _ (sortKeys_of_sortItems hs)⟩
      rw [sortKeys_of_sortItems hs] at ht
      cases ht
      exact hp
    have hvals : Json.SortedMembers (Json.joinedMembers ms) ↔ KeysAgreeItems items := by
      rw [Json.sortedMembers_iff, keysAgreeItems_iff, Json.joinedMembers_eq_map]
      constructor
      · intro hm p hp
        have hmem : encode p.2 ∈ ms.map fun m => .ok m.2 :=
          hv ▸ List.mem_map_of_mem ((sortItems_perm hs).mem_iff.mpr hp)
        obtain ⟨m, hmm, hme⟩ := List.mem_map.mp hmem
        exact (sorted_joined_items items p hp hme.symm).mp (hm _ (List.mem_map_of_mem hmm))
      · intro hp m' hm'
        obtain ⟨m, hm, rfl⟩ := List.mem_map.mp hm'
        have hmem : Except.ok m.2 ∈ s.map fun p => encode p.2 := hv ▸ List.mem_map_of_mem hm
        obtain ⟨p, hps, hpm⟩ := List.mem_map.mp hmem
        have hpi := (sortItems_perm hs).mem_iff.mp hps
        exact (sorted_joined_items items p hpi hpm).mpr (hp p hpi)
    exact and_congr hkeys hvals
  | .enum v, _, h => sorted_joined_iff (v := v) h
  | .dataclass _ _, _, h | .object _ _, _, h | .foreign _, _, h => by cases h

theorem sortedElems_joined_iff : ∀ {xs : List (PyVal D)} {ds : List (Json D)}, encodeElems xs = .ok ds →
    (Json.SortedElems (Json.joinedElems ds) ↔ KeysAgreeElems xs)
  | [], _, h => by
    cases h
    exact Iff.rfl
  | x :: xs, _, h => by
    obtain ⟨d, hd, h⟩ := bind_eq_ok.mp h
    obtain ⟨ds, hds, rfl⟩ := map_eq_ok.mp h
    exact and_congr (sorted_joined_iff hd) (sortedElems_joined_iff hds)

theorem sorted_joined_items : ∀ (items : List (PyKey D × PyVal D)), ∀ p ∈ items, ∀ {d : Json D}, encode p.2 = .ok d →
    (d.joined.Sorted ↔ p.2.KeysAgree)
  | [], _, hp => absurd hp List.not_mem_nil
  | (_, v) :: items, p, hp => by
    rcases List.mem_cons.mp hp with rfl | hp
    · exact sorted_joined_iff (v := v)
    · exact sorted_joined_items items p hp

end

/-! ## The round trip -/

/-- What was written is read back as the joined document. -/
theorem loads_print {v : PyVal D} {d : Json D} (h : encode v = .ok d) : loads d.print = .ok (ofJson d.joined) := by
  rw [loads, Json.parse_print d (fits_encode h)]

/-- **Reading back what was written and writing it again gives the same text exactly when the keys agree.** -/
theorem dumps_loads_iff {v : PyVal D} {t : Text} (h : dumps v = .ok t) :
    ((loads t).bind fun w : PyVal D => dumps w) = .ok t ↔ v.KeysAgree := by
  obtain ⟨d, hd, rfl⟩ := map_eq_ok.mp h
  have hf := fits_encode hd
  rw [loads_print hd, ← sorted_joined_iff hd, ← Json.print_canon_joined_iff hf]
  simp only [Except.bind, dumps, encode_ofJson (Json.fits_joined hf), Except.map, Except.ok.injEq]

end PyVal

end PyLib
