import Mathlib.Data.List.Perm.Basic
import ComplianceLoop.PyLib.JsonRead

/-!
# Values that were read, and the order of their members

`PyVal.IsJson` are the values that `json.loads` makes of a text whose floats are finite (`isJson_iff`).
`PyVal.SameUpToOrder` says that two values are equal but for the order of the members of their dicts, at every depth.
`encode_eq_iff`: the same document is written for two such values exactly when they are the same up to that order. The
proof goes through `Written`, which says what document is written for a value of each shape.
-/

set_option autoImplicit false

namespace PyLib

namespace PyVal

variable {D : Type}

mutual

/-- A value that `json.loads` gives for a text without a float beyond the doubles. -/
def IsJson : PyVal D → Prop
  | .none | .bool _ => True
  | .int i => Json.intFits i = true
  | .float f => ∃ d, f = .finite d
  | .str s => joinPairs s = s
  | .list xs => IsJsonElems xs
  | .dict items => (items.map Prod.fst).Nodup ∧ IsJsonItems items
  | _ => False

def IsJsonElems : List (PyVal D) → Prop
  | [] => True
  | x :: xs => IsJson x ∧ IsJsonElems xs

/-- The items of a dict whose keys are strings and whose values `json.loads` gives. -/
def IsJsonItems : List (PyKey D × PyVal D) → Prop
  | [] => True
  | (k, v) :: items => ((∃ s, k = .str s ∧ joinPairs s = s) ∧ IsJson v) ∧ IsJsonItems items

end

mutual

/-- Every float of the value is finite. -/
def FiniteFloats : PyVal D → Prop
  | .float f => ∃ d, f = .finite d
  | .list xs => FiniteElems xs
  | .dict items => FiniteItems items
  | _ => True

def FiniteElems : List (PyVal D) → Prop
  | [] => True
  | x :: xs => FiniteFloats x ∧ FiniteElems xs

def FiniteItems : List (PyKey D × PyVal D) → Prop
  | [] => True
  | (_, v) :: items => FiniteFloats v ∧ FiniteItems items

end

mutual

/-- Equal but for the order of the members of the dicts. -/
def SameUpToOrder : PyVal D → PyVal D → Prop
  | .list xs, .list ys => SameElems xs ys
  | .dict items, .dict items' => ∃ ms, ms.Perm items' ∧ SameItems items ms
  | v, w => v = w

def SameElems : List (PyVal D) → List (PyVal D) → Prop
  | [], [] => True
  | x :: xs, y :: ys => SameUpToOrder x y ∧ SameElems xs ys
  | _, _ => False

/-- The same keys in the same order, with values that are the same up to the order of their members. -/
def SameItems : List (PyKey D × PyVal D) → List (PyKey D × PyVal D) → Prop
  | [], [] => True
  | (k, v) :: items, (l, w) :: ms => (k = l ∧ SameUpToOrder v w) ∧ SameItems items ms
  | _, _ => False

end

theorem isJsonElems_iff : ∀ {xs : List (PyVal D)}, IsJsonElems xs ↔ ∀ x ∈ xs, x.IsJson
  | [] => by simp [IsJsonElems]
  | x :: xs => by rw [IsJsonElems, isJsonElems_iff, List.forall_mem_cons]

theorem isJsonItems_iff : ∀ {items : List (PyKey D × PyVal D)},
    IsJsonItems items ↔ ∀ p ∈ items, (∃ s, p.1 = .str s ∧ joinPairs s = s) ∧ p.2.IsJson
  | [] => by simp [IsJsonItems]
  | p :: items => by rw [IsJsonItems, isJsonItems_iff, List.forall_mem_cons]

theorem isJsonItems_of_perm {ms items : List (PyKey D × PyVal D)} (h : ms.Perm items) (hi : IsJsonItems items) :
    IsJsonItems ms :=
  isJsonItems_iff.mpr fun p hp => isJsonItems_iff.mp hi p (h.mem_iff.mp hp)

/-- A member as an item whose value has been encoded. -/
def encodedItem (m : PyStr × Json D) : PyKey D × Except PyExc (Json D) := (.str m.1, .ok m.2)

theorem encodedItem_injective : Function.Injective (encodedItem (D := D)) := by
  rintro ⟨s, d⟩ ⟨t, e⟩ h
  cases h
  rfl

theorem finiteElems_iff : ∀ {xs : List (PyVal D)}, FiniteElems xs ↔ ∀ x ∈ xs, x.FiniteFloats
  | [] => by simp [FiniteElems]
  | x :: xs => by rw [FiniteElems, finiteElems_iff, List.forall_mem_cons]

theorem finiteItems_iff : ∀ {items : List (PyKey D × PyVal D)}, FiniteItems items ↔ ∀ p ∈ items, p.2.FiniteFloats
  | [] => by simp [FiniteItems]
  | p :: items => by rw [FiniteItems, finiteItems_iff, List.forall_mem_cons]

/-! ## What is read -/

theorem ofElems_eq_map (xs : List (Json D)) : ofElems xs = xs.map ofJson := by
  induction xs with
  | nil => rfl
  | cons x xs ih => rw [ofElems, ih, List.map_cons]

mutual

theorem finiteFloats_of_isJson : ∀ {v : PyVal D}, v.IsJson → v.FiniteFloats
  | .float _, h => h
  | .list xs, h => finiteElems_of_isJson (show IsJsonElems xs from h)
  | .dict items, h => finiteItems_of_isJson (show IsJsonItems items from h.2)
  | .none, _ | .bool _, _ | .int _, _ | .str _, _ | .tuple _, _ | .datetime _, _ | .uuid _, _ | .enum _, _
  | .dataclass _ _, _ | .object _ _, _ | .foreign _, _ => trivial

theorem finiteElems_of_isJson : ∀ {xs : List (PyVal D)}, IsJsonElems xs → FiniteElems xs
  | [], _ => trivial
  | _ :: _, h => ⟨finiteFloats_of_isJson h.1, finiteElems_of_isJson h.2⟩

theorem finiteItems_of_isJson : ∀ {items : List (PyKey D × PyVal D)}, IsJsonItems items → FiniteItems items
  | [], _ => trivial
  | (_, _) :: _, h => ⟨finiteFloats_of_isJson h.1.2, finiteItems_of_isJson h.2⟩

end

mutual

/-- Every value of `IsJson` is made from a document. -/
theorem exists_ofJson : ∀ {v : PyVal D}, v.IsJson → ∃ d : Json D, ofJson d = v ∧ d.Fits ∧ d.joined = d
  | .none, _ => ⟨.null, rfl, trivial, rfl⟩
  | .bool b, _ => ⟨.bool b, rfl, trivial, rfl⟩
  | .int i, h => ⟨.int i, rfl, h, rfl⟩
  | .float f, _ => ⟨.float f, rfl, trivial, rfl⟩
  | .str s, h => ⟨.str s, rfl, trivial, congrArg Json.str h⟩
  | .list xs, h => by
    obtain ⟨ds, rfl, hf, hj⟩ := exists_ofElems (show IsJsonElems xs from h)
    exact ⟨.arr ds, rfl, hf, congrArg Json.arr hj⟩
  | .dict items, h => by
    obtain ⟨ms, rfl, hf, hj⟩ := exists_ofMembers h.2
    refine ⟨.obj ms, ?_, hf, congrArg Json.obj hj⟩
    have hn := h.1
    rw [List.map_map] at hn
    rw [ofJson, buildDict_of_nodup (nodup_str_iff.mp hn)]
  | .tuple _, h | .datetime _, h | .uuid _, h | .enum _, h | .dataclass _ _, h | .object _ _, h | .foreign _, h =>
    False.elim h

theorem exists_ofElems : ∀ {xs : List (PyVal D)}, IsJsonElems xs →
    ∃ ds : List (Json D), ofElems ds = xs ∧ Json.FitsElems ds ∧ Json.joinedElems ds = ds
  | [], _ => ⟨[], rfl, trivial, rfl⟩
  | x :: xs, h => by
    obtain ⟨d, rfl, hd, hj⟩ := exists_ofJson h.1
    obtain ⟨ds, rfl, hds, hjs⟩ := exists_ofElems h.2
    exact ⟨d :: ds, rfl, ⟨hd, hds⟩, by rw [Json.joinedElems, hj, hjs]⟩

theorem exists_ofMembers : ∀ {items : List (PyKey D × PyVal D)}, IsJsonItems items →
    ∃ ms : List (PyStr × Json D), (ofMembers ms).map (fun p => (PyKey.str p.1, p.2)) = items ∧
      Json.FitsMembers ms ∧ Json.joinedMembers ms = ms
  | [], _ => ⟨[], rfl, trivial, rfl⟩
  | (_, v) :: items, h => by
    obtain ⟨⟨⟨s, rfl, hs⟩, hv⟩, hi⟩ := h
    obtain ⟨d, rfl, hd, hj⟩ := exists_ofJson hv
    obtain ⟨ms, rfl, hms, hjs⟩ := exists_ofMembers hi
    exact ⟨(s, d) :: ms, rfl, ⟨hd, hms⟩, by rw [Json.joinedMembers, hs, hj, hjs]⟩

end

variable [FloatOps D]

/-- What the parser makes is a value of `IsJson` when its floats are finite. -/
theorem keptByParser_isJson :
    Json.KeptByParser fun d : Json D => (ofJson d).FiniteFloats → (ofJson d).IsJson where
  scalar := fun h hf => by
    rcases Json.parseScalar_cases h with hp | ⟨b, hp⟩ | ⟨f, hp⟩ | ⟨i, hp, hi⟩ <;> rw [hp] at hf ⊢
    · exact trivial
    · exact trivial
    · exact hf
    · exact hi
  str := fun hs _ => hs
  arr := fun {xs} hx hf => by
    rw [ofJson, FiniteFloats, ofElems_eq_map, finiteElems_iff, List.forall_mem_map] at hf
    rw [ofJson, IsJson, ofElems_eq_map, isJsonElems_iff, List.forall_mem_map]
    exact fun d hd => hx d hd (hf d hd)
  obj := fun {ms} hm hf => by
    rw [ofJson, FiniteFloats, finiteItems_iff, List.forall_mem_map] at hf
    rw [ofJson, IsJson, isJsonItems_iff, List.forall_mem_map, List.map_map]
    refine ⟨?_, fun p hp => ?_⟩
    · exact nodup_str_iff.mpr (nodup_buildDict (ofMembers ms))
    · have hmem := mem_buildDict hp
      rw [ofMembers_eq_map] at hmem
      obtain ⟨m, hmm, rfl⟩ := List.mem_map.mp hmem
      exact ⟨⟨m.1, rfl, (hm m hmm).1⟩, (hm m hmm).2 (hf _ hp)⟩

/-- **The values of `IsJson` are the ones that `json.loads` gives with finite floats.** -/
theorem isJson_iff {v : PyVal D} : v.IsJson ↔ v.FiniteFloats ∧ ∃ t, loads t = .ok v := by
  constructor
  · intro h
    obtain ⟨d, rfl, hf, hj⟩ := exists_ofJson h
    refine ⟨finiteFloats_of_isJson h, d.print, ?_⟩
    rw [loads, Json.parse_print d hf, hj]
  · rintro ⟨hf, t, h⟩
    unfold loads at h
    split at h
    · rename_i d hd
      cases h
      exact keptByParser_isJson.parse hd hf
    · exact absurd h (raise_ne_ok _ _ _)

/-! ## What is written -/

/-- What is written for a value of each shape. -/
inductive Written : PyVal D → Json D → Prop where
  | none : Written .none .null
  | bool {b : Bool} : Written (.bool b) (.bool b)
  | int {i : Int} (h : Json.intFits i = true) : Written (.int i) (.int i)
  | float {f : PyFloat D} : Written (.float f) (.float f)
  | str {s : PyStr} (h : joinPairs s = s) : Written (.str s) (.str s)
  | list {xs : List (PyVal D)} {ds : List (Json D)} (h : encodeElems xs = .ok ds) (hj : ∀ d ∈ ds, d.joined = d) :
      Written (.list xs) (.arr ds)
  | dict {items : List (PyKey D × PyVal D)} {ds ms : List (PyStr × Json D)}
      (h : encodeItems items = ds.map fun p => (PyKey.str p.1, .ok p.2))
      (hj : ∀ m ∈ ds, joinPairs m.1 = m.1 ∧ m.2.joined = m.2) (hm : ms = sortMembers ds) :
      Written (.dict items) (.obj ms)

theorem Written.encode {v : PyVal D} {d : Json D} (h : Written v d) : encode v = .ok d := by
  cases h with
  | none | bool | float | str => rfl
  | int h => rw [PyVal.encode, if_pos h]
  | list h => rw [PyVal.encode, h, Except.map]
  | dict h _ hm => rw [encode_dict_str h, hm]

theorem Written.joined {v : PyVal D} {d : Json D} (h : Written v d) : d.joined = d := by
  cases h with
  | none | bool | int | float => rfl
  | str h => rw [Json.joined, h]
  | list _ hj => exact congrArg Json.arr (Json.joinedElems_eq_iff.mpr hj)
  | dict _ hj hm =>
    refine congrArg Json.obj (Json.joinedMembers_eq_iff.mpr fun m h => hj m ?_)
    exact (perm_sortMembers _).mem_iff.mp (hm ▸ h)

mutual

/-- Every value that was read is written. -/
theorem exists_written : ∀ {v : PyVal D}, v.IsJson → ∃ d, Written v d
  | .none, _ => ⟨.null, Written.none⟩
  | .bool b, _ => ⟨.bool b, Written.bool⟩
  | .int i, h => ⟨.int i, Written.int h⟩
  | .float f, _ => ⟨.float f, Written.float⟩
  | .str s, h => ⟨.str s, Written.str h⟩
  | .list _, h => by
    obtain ⟨ds, hds, hj⟩ := exists_encodeElems h
    exact ⟨_, .list hds hj⟩
  | .dict _, h => by
    obtain ⟨ds, hds, hj⟩ := exists_encodeItems h.2
    exact ⟨_, .dict hds hj rfl⟩
  | .tuple _, h | .datetime _, h | .uuid _, h | .enum _, h | .dataclass _ _, h | .object _ _, h | .foreign _, h =>
    False.elim h

theorem exists_encodeElems : ∀ {xs : List (PyVal D)}, IsJsonElems xs →
    ∃ ds, encodeElems xs = .ok ds ∧ ∀ d ∈ ds, d.joined = d
  | [], _ => ⟨[], rfl, fun _ h => absurd h List.not_mem_nil⟩
  | x :: xs, h => by
    obtain ⟨d, hd⟩ := exists_written h.1
    obtain ⟨ds, hds, hj⟩ := exists_encodeElems h.2
    refine ⟨d :: ds, ?_, List.forall_mem_cons.mpr ⟨hd.joined, hj⟩⟩
    rw [encodeElems, hd.encode, hds]
    rfl

theorem exists_encodeItems : ∀ {items : List (PyKey D × PyVal D)}, IsJsonItems items →
    ∃ ds : List (PyStr × Json D), encodeItems items = ds.map (fun p => (PyKey.str p.1, .ok p.2)) ∧
      ∀ m ∈ ds, joinPairs m.1 = m.1 ∧ m.2.joined = m.2
  | [], _ => ⟨[], rfl, fun _ h => absurd h List.not_mem_nil⟩
  | (k, v) :: items, h => by
    obtain ⟨⟨⟨s, hk, hs⟩, hv⟩, hi⟩ := h
    obtain ⟨d, hd⟩ := exists_written hv
    obtain ⟨ds, hds, hj⟩ := exists_encodeItems hi
    refine ⟨(s, d) :: ds, ?_, List.forall_mem_cons.mpr ⟨⟨hs, hd.joined⟩, hj⟩⟩
    rw [encodeItems, hd.encode, hds, hk, List.map_cons]

end

theorem written_of_encode {v : PyVal D} {d : Json D} (hv : v.IsJson) (h : encode v = .ok d) : Written v d := by
  obtain ⟨e, he⟩ := exists_written hv
  rw [he.encode] at h
  exact Except.ok.inj h ▸ he

/-! ## The same document -/

theorem map_fst_encodeItems (items : List (PyKey D × PyVal D)) :
    (encodeItems items).map Prod.fst = items.map Prod.fst := by
  rw [encodeItems_eq_map, List.map_map]
  rfl

/-- Two dicts have the same sorted members exactly when their encoded items are the same up to order. -/
theorem sortMembers_eq_iff {items items' : List (PyKey D × PyVal D)} {ds ds' : List (PyStr × Json D)}
    (h : encodeItems items = ds.map encodedItem) (h' : encodeItems items' = ds'.map encodedItem)
    (hn : (items.map Prod.fst).Nodup) :
    sortMembers ds = sortMembers ds' ↔ (encodeItems items).Perm (encodeItems items') := by
  rw [h, h', List.map_perm_map_iff encodedItem_injective]
  refine ⟨fun hs => (perm_sortMembers ds).symm.trans (hs ▸ perm_sortMembers ds'), fun hp => ?_⟩
  refine sortMembers_eq_of_perm hp ?_
  rw [← map_fst_encodeItems, h, List.map_map] at hn
  exact nodup_str_iff.mp hn

/-- The items of a dict in the order in which another dict has the same encoded items. -/
theorem exists_reordered {items items' : List (PyKey D × PyVal D)}
    (h : (encodeItems items).Perm (encodeItems items')) :
    ∃ ms, encodeItems items = encodeItems ms ∧ ms.Perm items' := by
  have hc := List.eq_map_comp_perm fun p : PyKey D × PyVal D => (p.1, encode p.2)
  rw [encodeItems_eq_map items'] at h
  obtain ⟨ms, h1, h2⟩ := (congrFun₂ hc (encodeItems items) items').mpr h
  exact ⟨ms, h1.trans (encodeItems_eq_map ms).symm, h2⟩

theorem encodeElems_cons {x : PyVal D} {xs : List (PyVal D)} {ds : List (Json D)}
    (h : encodeElems (x :: xs) = .ok ds) : ∃ d es, ds = d :: es ∧ encode x = .ok d ∧ encodeElems xs = .ok es := by
  rw [encodeElems] at h
  obtain ⟨d, hd, h⟩ := bind_eq_ok.mp h
  obtain ⟨es, hes, rfl⟩ := map_eq_ok.mp h
  exact ⟨d, es, rfl, hd, hes⟩

mutual

/-- Values for which the same document is written are the same up to the order of their members. -/
theorem same_of_encode : ∀ {v w : PyVal D} {d : Json D}, v.IsJson → w.IsJson → encode v = .ok d → encode w = .ok d →
    v.SameUpToOrder w
  | .list xs, w, d, hv, hw, h, h' => by
    cases written_of_encode hv h with
    | list hx =>
      cases written_of_encode hw h' with
      | list hy => exact sameElems_of_encode hv hw hx hy
  | .dict items, w, d, hv, hw, h, h' => by
    cases written_of_encode hv h with
    | dict hi _ hm =>
      cases written_of_encode hw h' with
      | dict hi' _ hm' =>
        obtain ⟨ms, hms, hp⟩ := exists_reordered ((sortMembers_eq_iff hi hi' hv.1).mp (hm ▸ hm'))
        exact ⟨ms, hp, sameItems_of_encode hv.2 (isJsonItems_of_perm hp hw.2) hms⟩
  | .none, w, _, hv, hw, h, h' | .bool _, w, _, hv, hw, h, h' | .int _, w, _, hv, hw, h, h'
  | .float _, w, _, hv, hw, h, h' | .str _, w, _, hv, hw, h, h' => by
    cases written_of_encode hv h
    cases written_of_encode hw h'
    exact rfl
  | .tuple _, _, _, hv, _, _, _ | .datetime _, _, _, hv, _, _, _ | .uuid _, _, _, hv, _, _, _
  | .enum _, _, _, hv, _, _, _ | .dataclass _ _, _, _, hv, _, _, _ | .object _ _, _, _, hv, _, _, _
  | .foreign _, _, _, hv, _, _, _ => False.elim hv

theorem sameElems_of_encode : ∀ {xs ys : List (PyVal D)} {ds : List (Json D)}, IsJsonElems xs → IsJsonElems ys →
    encodeElems xs = .ok ds → encodeElems ys = .ok ds → SameElems xs ys
  | [], [], _, _, _, _, _ => trivial
  | [], y :: ys, ds, _, _, h, h' => by
    obtain ⟨d, es, rfl, -, -⟩ := encodeElems_cons h'
    cases h
  | x :: xs, [], ds, _, _, h, h' => by
    obtain ⟨d, es, rfl, -, -⟩ := encodeElems_cons h
    cases h'
  | x :: xs, y :: ys, ds, hv, hw, h, h' => by
    obtain ⟨d, es, rfl, hx, hxs⟩ := encodeElems_cons h
    obtain ⟨_, _, he, hy, hys⟩ := encodeElems_cons h'
    cases he
    exact ⟨same_of_encode hv.1 hw.1 hx hy, sameElems_of_encode hv.2 hw.2 hxs hys⟩

theorem sameItems_of_encode : ∀ {items ms : List (PyKey D × PyVal D)}, IsJsonItems items → IsJsonItems ms →
    encodeItems items = encodeItems ms → SameItems items ms
  | [], [], _, _, _ => trivial
  | [], (_, _) :: _, _, _, h => by cases h
  | (_, _) :: _, [], _, _, h => by cases h
  | (k, v) :: items, (l, w) :: ms, hv, hw, h => by
    rw [encodeItems, encodeItems, List.cons.injEq, Prod.mk.injEq] at h
    obtain ⟨d, hd⟩ := exists_written hv.1.2
    have hs := same_of_encode hv.1.2 hw.1.2 hd.encode (h.1.2 ▸ hd.encode)
    exact ⟨⟨h.1.1, hs⟩, sameItems_of_encode hv.2 hw.2 h.2⟩

end

mutual

/-- The order of the members does not matter to the document that is written. -/
theorem encode_of_same : ∀ {v w : PyVal D}, v.IsJson → w.IsJson → v.SameUpToOrder w → encode v = encode w
  | .list xs, w, hv, hw, h => by
    cases w with
    | list ys => rw [encode, encode, encodeElems_of_same hv hw h]
    | _ => cases h
  | .dict items, w, hv, hw, h => by
    cases w with
    | dict items' =>
      obtain ⟨ms, hp, hs⟩ := h
      obtain ⟨ds, hds, -⟩ := exists_encodeItems hv.2
      obtain ⟨ds', hds', -⟩ := exists_encodeItems hw.2
      have hperm : (encodeItems items).Perm (encodeItems items') := by
        rw [encodeItems_of_same hv.2 (isJsonItems_of_perm hp hw.2) hs, encodeItems_eq_map, encodeItems_eq_map]
        exact hp.map _
      rw [encode_dict_str hds, encode_dict_str hds', (sortMembers_eq_iff hds hds' hv.1).mpr hperm]
    | _ => cases h
  | .none, _, _, _, h | .bool _, _, _, _, h | .int _, _, _, _, h | .float _, _, _, _, h | .str _, _, _, _, h =>
    congrArg encode h
  | .tuple _, _, hv, _, _ | .datetime _, _, hv, _, _ | .uuid _, _, hv, _, _ | .enum _, _, hv, _, _
  | .dataclass _ _, _, hv, _, _ | .object _ _, _, hv, _, _ | .foreign _, _, hv, _, _ => False.elim hv

theorem encodeElems_of_same : ∀ {xs ys : List (PyVal D)}, IsJsonElems xs → IsJsonElems ys → SameElems xs ys →
    encodeElems xs = encodeElems ys
  | [], [], _, _, _ => rfl
  | x :: xs, y :: ys, hv, hw, h => by
    rw [encodeElems, encodeElems, encode_of_same hv.1 hw.1 h.1, encodeElems_of_same hv.2 hw.2 h.2]

theorem encodeItems_of_same : ∀ {items ms : List (PyKey D × PyVal D)}, IsJsonItems items → IsJsonItems ms →
    SameItems items ms → encodeItems items = encodeItems ms
  | [], [], _, _, _ => rfl
  | (k, v) :: items, (l, w) :: ms, hv, hw, h => by
    rw [encodeItems, encodeItems, encode_of_same hv.1.2 hw.1.2 h.1.2, encodeItems_of_same hv.2 hw.2 h.2, h.1.1]

end

/-- **The same document is written for two values that were read exactly when they are the same up to the order of
their members.** -/
theorem encode_eq_iff {v w : PyVal D} (hv : v.IsJson) (hw : w.IsJson) : encode v = encode w ↔ v.SameUpToOrder w := by
  refine ⟨fun h => ?_, encode_of_same hv hw⟩
  obtain ⟨d, hd⟩ := exists_written hv
  exact same_of_encode hv hw hd.encode (h ▸ hd.encode)

end PyVal

end PyLib
