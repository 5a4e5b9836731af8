import Mathlib.Data.List.Perm.Basic
import ComplianceLoop.PyLib.JsonRead
import ComplianceLoop.Audit.WriteNode

/-!
# The representations of an agent result

An agent result reaches the audit node as a dataclass instance, as a dict or as a plain object. `IsContent` are the
values that findings are made of, and `SameContent` says that two of them differ only in whether a finding is a
dataclass instance or a dict, and in the order of its members. `dataclasses.asdict` gives such values the same document
(`encode_asDict_of_same`). A dict and the attributes of an object are not converted inside, so a dataclass instance in
them reaches the JSON fallback, which refuses it: `sameHash_iff`.
-/

set_option autoImplicit false

namespace ComplianceLoop

open PyLib

section

variable {D : Type}

/-! ## The content -/

/-- Attributes as the items of a dict. -/
def namedItems (attrs : List (Text × PyVal D)) : List (PyKey D × PyVal D) := attrs.map fun p => (.str (pyStr p.1), p.2)

/-- The members of a finding: the fields of a dataclass instance or the items of a dict. -/
def members : PyVal D → Option (List (PyKey D × PyVal D))
  | .dataclass _ fields => some (namedItems fields)
  | .dict items => some items
  | _ => none

/-- The names of the members are strings, each of them there once. -/
def NamedOnce (ms : List (PyKey D × PyVal D)) : Prop :=
  ∃ l : List (PyStr × PyVal D), ms = l.map (fun p => (.str p.1, p.2)) ∧ (l.map Prod.fst).Nodup

/-- A value that findings are made of. -/
inductive IsContent : PyVal D → Prop where
  | none : IsContent .none
  | bool (b : Bool) : IsContent (.bool b)
  | int (i : Int) : IsContent (.int i)
  | float (f : PyFloat D) : IsContent (.float f)
  | str (s : PyStr) : IsContent (.str s)
  | datetime (w : DateTime) : IsContent (.datetime w)
  | uuid (u : Uuid) : IsContent (.uuid u)
  | enum {v : PyVal D} (h : IsContent v) : IsContent (.enum v)
  | list {xs : List (PyVal D)} (h : ∀ x ∈ xs, IsContent x) : IsContent (.list xs)
  | finding {v : PyVal D} {ms : List (PyKey D × PyVal D)} (hm : members v = some ms) (hn : NamedOnce ms)
      (h : ∀ p ∈ ms, IsContent p.2) : IsContent v

/-- The same content: a finding may be a dataclass instance or a dict, with its members in any order. -/
inductive SameContent : PyVal D → PyVal D → Prop where
  | refl (v : PyVal D) : SameContent v v
  | list {xs ys : List (PyVal D)} (hl : xs.length = ys.length)
      (h : ∀ i (hx : i < xs.length) (hy : i < ys.length), SameContent xs[i] ys[i]) : SameContent (.list xs) (.list ys)
  | finding {v w : PyVal D} {ms ns : List (PyKey D × PyVal D)} (hv : members v = some ms) (hw : members w = some ns)
      (hk : (ms.map Prod.fst).Perm (ns.map Prod.fst))
      (h : ∀ k x y, (k, x) ∈ ms → (k, y) ∈ ns → SameContent x y) : SameContent v w

mutual

/-- No dataclass instance or other object is inside, and no integer beyond the digit limit. -/
def canWrite : PyVal D → Bool
  | .int i => Json.intFits i
  | .list xs => canWriteElems xs
  | .tuple xs => canWriteElems xs
  | .dict items => canWriteItems items
  | .enum v => canWrite v
  | .dataclass _ _ => false
  | .object _ _ => false
  | .foreign _ => false
  | _ => true

def canWriteElems : List (PyVal D) → Bool
  | [] => true
  | x :: xs => canWrite x && canWriteElems xs

def canWriteItems : List (PyKey D × PyVal D) → Bool
  | [] => true
  | (_, v) :: items => canWrite v && canWriteItems items

end

theorem canWriteElems_iff : ∀ {xs : List (PyVal D)}, canWriteElems xs = true ↔ ∀ x ∈ xs, canWrite x = true
  | [] => by simp [canWriteElems]
  | x :: xs => by rw [canWriteElems, Bool.and_eq_true, canWriteElems_iff, List.forall_mem_cons]

theorem canWriteItems_iff : ∀ {items : List (PyKey D × PyVal D)},
    canWriteItems items = true ↔ ∀ p ∈ items, canWrite p.2 = true
  | [] => by simp [canWriteItems]
  | p :: items => by rw [canWriteItems, Bool.and_eq_true, canWriteItems_iff, List.forall_mem_cons]

theorem members_eq_some {v : PyVal D} {ms : List (PyKey D × PyVal D)} (h : members v = some ms) :
    v = .dict ms ∨ ∃ cls fields, v = .dataclass cls fields ∧ ms = namedItems fields := by
  cases v with
  | dict items => exact .inl (congrArg _ (Option.some.inj h))
  | dataclass cls fields => exact .inr ⟨cls, fields, rfl, (Option.some.inj h).symm⟩
  | _ => cases h

/-! ## The members of a finding -/

/-- The keys of a finding are different. -/
theorem NamedOnce.nodup {ms : List (PyKey D × PyVal D)} (h : NamedOnce ms) : (ms.map Prod.fst).Nodup := by
  obtain ⟨l, rfl, hn⟩ := h
  rw [List.map_map]
  exact PyVal.nodup_str_iff.mpr hn

theorem NamedOnce.mapValues {ms : List (PyKey D × PyVal D)} (h : NamedOnce ms) (f : PyVal D → PyVal D) :
    NamedOnce (ms.map fun p => (p.1, f p.2)) := by
  obtain ⟨l, rfl, hn⟩ := h
  refine ⟨l.map fun p => (p.1, f p.2), ?_, ?_⟩
  · rw [List.map_map, List.map_map]
    rfl
  · rwa [List.map_map]

theorem named_injective {β : Type} : Function.Injective fun p : PyStr × β => ((PyKey.str p.1 : PyKey D), p.2) := by
  rintro ⟨s, d⟩ ⟨t, e⟩ h
  cases h
  rfl

/-- The values of one name agree, so a name with its value is found on the other side. -/
theorem mem_map_of_keys {γ : Type} {f : PyVal D → γ} {ms ns : List (PyKey D × PyVal D)}
    (hk : ∀ k, k ∈ ms.map Prod.fst → k ∈ ns.map Prod.fst)
    (h : ∀ k x y, (k, x) ∈ ms → (k, y) ∈ ns → f x = f y) {z : PyKey D × γ}
    (hz : z ∈ ms.map fun p => (p.1, f p.2)) : z ∈ ns.map fun p => (p.1, f p.2) := by
  obtain ⟨⟨k, x⟩, hx, rfl⟩ := List.mem_map.mp hz
  obtain ⟨⟨_, y⟩, hy, rfl⟩ := List.mem_map.mp (hk k (List.mem_map_of_mem hx))
  exact List.mem_map.mpr ⟨_, hy, by rw [h _ x y hx hy]⟩

/-- Members with the same names are the same up to order when the values of one name agree. -/
theorem map_perm_of_keys {γ : Type} {f : PyVal D → γ} {ms ns : List (PyKey D × PyVal D)} (hm : NamedOnce ms)
    (hn : NamedOnce ns) (hk : (ms.map Prod.fst).Perm (ns.map Prod.fst))
    (h : ∀ k x y, (k, x) ∈ ms → (k, y) ∈ ns → f x = f y) :
    (ms.map fun p => (p.1, f p.2)).Perm (ns.map fun p => (p.1, f p.2)) := by
  have hnodup : ∀ {l : List (PyKey D × PyVal D)}, NamedOnce l → (l.map fun p => (p.1, f p.2)).Nodup := by
    intro l hl
    refine List.Nodup.of_map Prod.fst ?_
    rw [List.map_map]
    exact hl.nodup
  refine (List.perm_ext_iff_of_nodup (hnodup hm) (hnodup hn)).mpr fun z => ⟨fun hz => ?_, fun hz => ?_⟩
  · exact mem_map_of_keys (fun k => hk.mem_iff.mp) h hz
  · exact mem_map_of_keys (fun k => hk.mem_iff.mpr) (fun k x y hx hy => (h k y x hy hx).symm) hz

theorem isContent_elem {xs : List (PyVal D)} (h : IsContent (.list xs)) {x : PyVal D} (hx : x ∈ xs) : IsContent x := by
  cases h with
  | list h => exact h x hx
  | finding hm => cases hm

theorem isContent_member {v : PyVal D} {ms : List (PyKey D × PyVal D)} (h : IsContent v) (hm : members v = some ms) :
    NamedOnce ms ∧ ∀ p ∈ ms, IsContent p.2 := by
  cases h with
  | finding hm' hn h =>
    rw [hm'] at hm
    cases hm
    exact ⟨hn, h⟩
  | _ => cases hm

/-! ## What `asdict` makes of it -/

theorem asDictElems_eq_map : ∀ xs : List (PyVal D), PyVal.asDictElems xs = xs.map PyVal.asDict
  | [] => rfl
  | x :: xs => by rw [PyVal.asDictElems, asDictElems_eq_map xs, List.map_cons]

theorem asDictItems_eq_map : ∀ items : List (PyKey D × PyVal D),
    PyVal.asDictItems items = items.map fun p => (p.1, p.2.asDict)
  | [] => rfl
  | p :: items => by rw [PyVal.asDictItems, asDictItems_eq_map items, List.map_cons]

theorem asDictFields_eq_map : ∀ fields : List (Text × PyVal D),
    PyVal.asDictFields fields = (namedItems fields).map fun p => (p.1, p.2.asDict)
  | [] => rfl
  | p :: fields => by rw [PyVal.asDictFields, asDictFields_eq_map fields]; rfl

/-- A finding becomes a dict of its members. -/
theorem asDict_finding {v : PyVal D} {ms : List (PyKey D × PyVal D)} (h : members v = some ms) :
    v.asDict = .dict (ms.map fun p => (p.1, p.2.asDict)) := by
  rcases members_eq_some h with rfl | ⟨cls, fields, rfl, rfl⟩
  · rw [PyVal.asDict, asDictItems_eq_map]
  · rw [PyVal.asDict, asDictFields_eq_map]

/-- `asdict` changes nothing where no instance is inside. -/
theorem asDict_of_canWrite {v : PyVal D} (hv : IsContent v) : canWrite v = true → v.asDict = v := by
  induction hv with
  | none | bool | int | float | str | datetime | uuid | enum => exact fun _ => rfl
  | list _ ih =>
    intro h
    rw [canWrite, canWriteElems_iff] at h
    rw [PyVal.asDict, asDictElems_eq_map, List.map_congr_left fun x hx => ih x hx (h x hx), List.map_id']
  | finding hm _ _ ih =>
    intro h
    rcases members_eq_some hm with rfl | ⟨cls, fields, rfl, rfl⟩
    · rw [canWrite, canWriteItems_iff] at h
      rw [PyVal.asDict, asDictItems_eq_map, List.map_congr_left fun p hp => by rw [ih p hp (h p hp)], List.map_id']
    · rw [canWrite] at h
      cases h

end

/-! ## What is written -/

section

variable {D : Type} [FloatOps D]

/-- The encoded items of a finding. -/
theorem encodeItems_named (l : List (PyStr × PyVal D)) :
    PyVal.encodeItems (l.map fun p => ((PyKey.str p.1 : PyKey D), p.2)) =
      (l.map fun p => (p.1, p.2.encode)).map fun p => (PyKey.str p.1, p.2) := by
  rw [PyVal.encodeItems_eq_map, List.map_map, List.map_map]
  rfl

/-- Two dicts are written alike when they have the same encoded items in any order. -/
theorem encode_dict_of_perm {ms ns : List (PyKey D × PyVal D)} (hm : NamedOnce ms) (hn : NamedOnce ns)
    (h : (PyVal.encodeItems ms).Perm (PyVal.encodeItems ns)) : PyVal.encode (.dict ms) = PyVal.encode (.dict ns) := by
  obtain ⟨l, rfl, hl⟩ := hm
  obtain ⟨l', rfl, -⟩ := hn
  rw [encodeItems_named, encodeItems_named, List.map_perm_map_iff named_injective] at h
  have hs := sortMembers_eq_of_perm h (by rwa [List.map_map])
  rw [PyVal.encode_dict_named (encodeItems_named l), PyVal.encode_dict_named (encodeItems_named l'), hs]

/-- A dict can be written exactly when its values can. -/
theorem returned_encode_dict {ms : List (PyKey D × PyVal D)} (h : NamedOnce ms) :
    returned (PyVal.encode (.dict ms)) = true ↔ ∀ p ∈ ms, returned p.2.encode = true := by
  obtain ⟨l, rfl, -⟩ := h
  rw [PyVal.returned_encode_named (encodeItems_named l), List.forall_mem_map, List.forall_mem_map]

theorem returned_encodeElems : ∀ {xs : List (PyVal D)},
    returned (PyVal.encodeElems xs) = true ↔ ∀ x ∈ xs, returned x.encode = true
  | [] => by simp [PyVal.encodeElems]
  | x :: xs => by
    rw [PyVal.encodeElems, List.forall_mem_cons, ← returned_encodeElems]
    cases x.encode with
    | error e => simp [Except.bind]
    | ok d => simp [Except.bind]

/-- Elements that are written alike make arrays that are written alike. -/
theorem encodeElems_congr : ∀ {xs ys : List (PyVal D)}, xs.map PyVal.encode = ys.map PyVal.encode →
    PyVal.encodeElems xs = PyVal.encodeElems ys
  | [], [], _ => rfl
  | x :: xs, y :: ys, h => by
    rw [List.map_cons, List.map_cons, List.cons.injEq] at h
    rw [PyVal.encodeElems, PyVal.encodeElems, h.1, encodeElems_congr h.2]

/-- **What can be written of a content.** -/
theorem returned_encode_iff {v : PyVal D} (hv : IsContent v) : returned v.encode = true ↔ canWrite v = true := by
  induction hv with
  | none | bool | float | str | datetime | uuid => simp [PyVal.encode, canWrite]
  | int i =>
    rw [PyVal.encode, canWrite]
    split <;> simp_all
  | enum _ ih => rw [PyVal.encode, ih, canWrite]
  | list _ ih =>
    rw [PyVal.encode, returned_map, returned_encodeElems, canWrite, canWriteElems_iff]
    exact forall₂_congr ih
  | finding hm hn _ ih =>
    rcases members_eq_some hm with rfl | ⟨cls, fields, rfl, rfl⟩
    · rw [returned_encode_dict hn, canWrite, canWriteItems_iff]
      exact forall₂_congr ih
    · simp [PyVal.encode, notSerialisable, canWrite]

/-- **`asdict` makes the same document of the same content.** -/
theorem encode_asDict_of_same {v w : PyVal D} (h : SameContent v w) :
    IsContent v → IsContent w → v.asDict.encode = w.asDict.encode := by
  induction h with
  | refl => exact fun _ _ => rfl
  | @list xs ys hl _ ih =>
    intro hv hw
    have hmap : (xs.map PyVal.asDict).map PyVal.encode = (ys.map PyVal.asDict).map PyVal.encode := by
      rw [List.map_map, List.map_map]
      refine List.ext_getElem (by simp [hl]) fun i hx hy => ?_
      rw [List.length_map] at hx hy
      rw [List.getElem_map, List.getElem_map]
      exact ih i hx hy (isContent_elem hv (List.getElem_mem hx)) (isContent_elem hw (List.getElem_mem hy))
    rw [PyVal.asDict, PyVal.asDict, PyVal.encode, PyVal.encode, asDictElems_eq_map, asDictElems_eq_map,
      encodeElems_congr hmap]
  | @finding v w ms ns hv hw hk _ ih =>
    intro hcv hcw
    obtain ⟨hm, hmc⟩ := isContent_member hcv hv
    obtain ⟨hn, hnc⟩ := isContent_member hcw hw
    rw [asDict_finding hv, asDict_finding hw]
    refine encode_dict_of_perm (hm.mapValues _) (hn.mapValues _) ?_
    rw [PyVal.encodeItems_eq_map, PyVal.encodeItems_eq_map, List.map_map, List.map_map]
    exact map_perm_of_keys hm hn hk fun k x y hx hy => ih k x y hx hy (hmc _ hx) (hnc _ hy)

end

/-! ## The three representations -/

/-- One agent result in its three representations: the fields of a dataclass instance, the items of a dict and the
attributes of a plain object. The findings inside are dataclass instances or dicts. -/
structure AgentResult (D : Type) where
  cls : Text
  fields : List (Text × PyVal D)
  items : List (PyKey D × PyVal D)
  objectCls : Text
  attrs : List (Text × PyVal D)
  fields_content : IsContent (.dataclass cls fields)
  items_content : IsContent (.dict items)
  attrs_content : IsContent (.dict (namedItems attrs))
  items_same : SameContent (.dataclass cls fields) (.dict items)
  attrs_same : SameContent (.dataclass cls fields) (.dict (namedItems attrs))

section

variable {D : Type} [FloatOps D] (C : Crypto) (repr : PyVal D → PyStr)

/-- `compute_agent_outputs_hash(_serialise_agent_result(result))`. -/
def resultHash (result : PyVal D) : Except PyExc Text :=
  (serialiseAgentResult repr result).bind (computeAgentOutputsHash C)

/-- The three representations are hashed, and to the same hash. -/
def AgentResult.SameHash (r : AgentResult D) : Prop :=
  ∃ h, resultHash C repr (.dataclass r.cls r.fields) = .ok h ∧ resultHash C repr (.dict r.items) = .ok h ∧
    resultHash C repr (.object r.objectCls r.attrs) = .ok h

variable {C}

theorem truthy_dict {ms : List (PyKey D × PyVal D)} : (PyVal.dict ms).truthy = true ↔ ms ≠ [] := by
  cases ms <;> simp [PyVal.truthy]

/-- A hashed dict has members and can be written. -/
theorem returned_of_hash {ms : List (PyKey D × PyVal D)} {h : Text}
    (hh : computeAgentOutputsHash C (.dict ms) = .ok h) : ms ≠ [] ∧ returned (PyVal.dict ms).encode = true := by
  obtain ⟨ht, b, hb, -⟩ := hashAgentOutputs_eq_ok.mp hh
  obtain ⟨t, hd, -⟩ := map_eq_ok.mp hb
  obtain ⟨d, hd, -⟩ := map_eq_ok.mp hd
  exact ⟨truthy_dict.mp ht, by rw [hd]; rfl⟩

theorem hash_of_encode {ms : List (PyKey D × PyVal D)} {d : Json D} (hn : ms ≠ [])
    (hd : (PyVal.dict ms).encode = .ok d) : computeAgentOutputsHash C (.dict ms) = .ok (C.sha256 (utf8 d.print)) :=
  hashAgentOutputs_eq_ok.mpr ⟨truthy_dict.mpr hn, _, by rw [canonicalJson, PyVal.dumps, hd]; rfl, rfl⟩

omit [FloatOps D] in
/-- Findings with the same content have members both or neither. -/
theorem ne_nil_of_same {v w : PyVal D} {ms ns : List (PyKey D × PyVal D)} (h : SameContent v w)
    (hv : members v = some ms) (hw : members w = some ns) : ms ≠ [] ↔ ns ≠ [] := by
  cases h with
  | refl =>
    rw [hv] at hw
    cases hw
    exact Iff.rfl
  | list => cases hv
  | finding hv' hw' hk =>
    rw [hv'] at hv
    rw [hw'] at hw
    cases hv
    cases hw
    have hl := hk.length_eq
    rw [List.length_map, List.length_map] at hl
    rw [← List.length_pos_iff, ← List.length_pos_iff, hl]

/-- **The three representations of an agent result have one hash exactly when it has a field and neither the dict nor
the object holds a dataclass instance or an integer beyond the digit limit.** -/
theorem sameHash_iff (C : Crypto) (repr : PyVal D → PyStr) (r : AgentResult D) :
    r.SameHash C repr ↔
      r.items ≠ [] ∧ canWrite (.dict r.items) = true ∧ canWrite (.dict (namedItems r.attrs)) = true := by
  constructor
  · rintro ⟨h, -, hd, ho⟩
    obtain ⟨hn, hi⟩ := returned_of_hash hd
    obtain ⟨-, ha⟩ := returned_of_hash ho
    exact ⟨hn, (returned_encode_iff r.items_content).mp hi, (returned_encode_iff r.attrs_content).mp ha⟩
  · rintro ⟨hn, hi, ha⟩
    have hfields : namedItems r.fields ≠ [] := (ne_nil_of_same r.items_same rfl rfl).mpr hn
    have hattrs : namedItems r.attrs ≠ [] := (ne_nil_of_same r.attrs_same rfl rfl).mp hfields
    -- The dict and the object hold no instance, so all three are what `asdict` makes of them.
    have hsi := encode_asDict_of_same r.items_same r.fields_content r.items_content
    have hsa := encode_asDict_of_same r.attrs_same r.fields_content r.attrs_content
    rw [asDict_of_canWrite r.items_content hi] at hsi
    rw [asDict_of_canWrite r.attrs_content ha] at hsa
    obtain ⟨d, hd⟩ := returned_iff.mp ((returned_encode_iff r.items_content).mpr hi)
    refine ⟨C.sha256 (utf8 d.print), ?_, hash_of_encode hn hd, hash_of_encode hattrs (hsa.symm.trans (hsi.trans hd))⟩
    have hdict := asDict_finding (v := .dataclass r.cls r.fields) rfl
    rw [resultHash, serialiseAgentResult, ok_bind, hdict]
    refine hash_of_encode ?_ ?_
    · rwa [ne_eq, List.map_eq_nil_iff]
    · rw [← hdict, hsi, hd]

end

/-! ## A finding inside a dict -/

namespace FindingSample

def finding : PyVal WholeFloat :=
  .dataclass "Finding".toList [("finding_code".toList, .str (pyStr "PAN_MISMATCH".toList))]

def fields : List (Text × PyVal WholeFloat) := [("findings".toList, .list [finding])]

theorem namedOnce_one (p : Text × PyVal WholeFloat) : NamedOnce (namedItems [p]) :=
  ⟨[(pyStr p.1, p.2)], rfl, List.nodup_singleton _⟩

theorem isContent_finding : IsContent finding :=
  .finding rfl (namedOnce_one _) (List.forall_mem_singleton.mpr (.str _))

theorem isContent_of_members {v : PyVal WholeFloat} (h : members v = some (namedItems fields)) : IsContent v :=
  .finding h (namedOnce_one _) (List.forall_mem_singleton.mpr (.list (List.forall_mem_singleton.mpr isContent_finding)))

theorem same_of_members {v w : PyVal WholeFloat} (hv : members v = some (namedItems fields))
    (hw : members w = some (namedItems fields)) : SameContent v w := by
  refine .finding hv hw (.refl _) fun k x y hx hy => ?_
  obtain ⟨-, rfl⟩ := Prod.mk.inj (List.mem_singleton.mp hx)
  obtain ⟨-, rfl⟩ := Prod.mk.inj (List.mem_singleton.mp hy)
  exact .refl _

/-- A result with one finding, a dataclass instance in all three representations. -/
def result : AgentResult WholeFloat where
  cls := "AgentResult".toList
  fields := fields
  items := namedItems fields
  objectCls := "SimpleObj".toList
  attrs := fields
  fields_content := isContent_of_members rfl
  items_content := isContent_of_members rfl
  attrs_content := isContent_of_members rfl
  items_same := same_of_members rfl rfl
  attrs_same := same_of_members rfl rfl

end FindingSample

/-- The dataclass is hashed, and the dict raises the `TypeError` of the JSON fallback. -/
theorem not_sameHash : ¬ ∀ (C : Crypto) (repr : PyVal WholeFloat → PyStr) (r : AgentResult WholeFloat),
    r.SameHash C repr := by
  intro h
  obtain ⟨t, -, hd, -⟩ := h Sample.crypto (fun _ => []) FindingSample.result
  have hr : resultHash Sample.crypto (fun _ => []) (.dict FindingSample.result.items) =
      raise .typeError "Object of type Finding is not JSON serialisable".toList := rfl
  rw [hr] at hd
  cases hd

end ComplianceLoop
