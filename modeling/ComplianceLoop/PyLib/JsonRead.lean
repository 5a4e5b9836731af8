import ComplianceLoop.PyLib.Builtins

/-!
# What is read can be written

A document that was parsed has no integer beyond the digit limit (`fits_parse`), because the limit is checked on the
digits of the token and a value has at most as many digits as its token. So every member of a dict that `json.loads`
returns has a canonical text (`dumps_of_get`). In the other direction, a member of a dict with string keys survives
writing and reading the dict as it would on its own (`get_loads`).
-/

set_option autoImplicit false

namespace PyLib

/-! ## Digits of a token -/

theorem ofDigitChars_lt : ∀ {ds : Text} {k v : Nat}, (∀ c ∈ ds, c.isDigit = true) → v < 10 ^ k →
    Nat.ofDigitChars 10 ds v < 10 ^ (k + ds.length)
  | [], _, _, _, h => by simpa using h
  | c :: ds, k, v, hd, h => by
    have hc : c.toNat - '0'.toNat < 10 := by
      have h9 := hd c List.mem_cons_self
      simp only [Char.isDigit, Bool.and_eq_true, decide_eq_true_eq, UInt32.le_iff_toNat_le] at h9
      have : c.toNat ≤ 57 := h9.2
      have : '0'.toNat = 48 := rfl
      omega
    rw [Nat.ofDigitChars_cons, List.length_cons, show k + (ds.length + 1) = (k + 1) + ds.length by omega]
    refine ofDigitChars_lt (fun d hm => hd d (List.mem_cons_of_mem _ hm)) ?_
    rw [Nat.pow_succ]
    omega

theorem intFits_toInt {n : NumToken} (hd : NumToken.Digits n.int) (hl : n.int.length ≤ Json.maxStrDigits) :
    Json.intFits n.toInt = true := by
  have hv : n.toInt.natAbs = Nat.ofDigitChars 10 n.int 0 := by
    unfold NumToken.toInt
    split <;> simp
  have hlt : Nat.ofDigitChars 10 n.int 0 < 10 ^ n.int.length := by
    have := ofDigitChars_lt (k := 0) (v := 0) hd.2 (by decide)
    rwa [Nat.zero_add] at this
  have hpos : 0 < n.int.length := List.length_pos_iff.mpr hd.1
  have := (Nat.length_toDigits_le_iff (b := 10) (by decide) hpos).2 hlt
  rw [Json.intFits, hv]
  exact decide_eq_true (this.trans hl)

theorem scanDigits_digits {t : Text} {p : Text × Text} (h : scanDigits t = some p) : NumToken.Digits p.1 := by
  unfold scanDigits at h
  split at h
  · cases h
  · rename_i hne
    cases h
    exact ⟨hne, fun c hc => List.mem_takeWhile_imp hc⟩

theorem scanInt_digits {t : Text} {p : Text × Text} (h : scanInt t = some p) : NumToken.Digits p.1 := by
  unfold scanInt at h
  split at h
  · cases h
    exact ⟨by simp, by simp⟩
  · exact scanDigits_digits h

theorem scanNumber_digits {t : Text} {p : NumToken × Text} (h : scanNumber t = some p) : NumToken.Digits p.1.int := by
  simp only [scanNumber, Option.bind_eq_bind] at h
  obtain ⟨q, hq, h⟩ := Option.bind_eq_some_iff.mp h
  cases h
  exact scanInt_digits hq

namespace Json

variable {D : Type} [FloatText D]

/-- A literal or a number is none of the other documents. -/
theorem parseScalar_cases {t : Text} {p : Json D × Text} (h : parseScalar t = some p) :
    p.1 = .null ∨ (∃ b, p.1 = .bool b) ∨ (∃ f, p.1 = .float f) ∨ ∃ i, p.1 = .int i ∧ intFits i = true := by
  rw [parseScalar, Option.or_eq_some_iff] at h
  rcases h with h | ⟨-, h⟩
  · obtain ⟨l, hl, h⟩ := List.exists_of_findSome?_eq_some h
    obtain ⟨r, -, rfl⟩ := Option.map_eq_some_iff.mp h
    simp only [literals, List.mem_cons, List.not_mem_nil, or_false] at hl
    rcases hl with rfl | rfl | rfl | rfl | rfl | rfl <;> simp
  · obtain ⟨q, hq, h⟩ := Option.bind_eq_some_iff.mp h
    obtain ⟨v, hv, rfl⟩ := Option.map_eq_some_iff.mp h
    unfold ofNumber at hv
    split_ifs at hv with h1 h2
    · cases hv
      exact .inr (.inr (.inl ⟨_, rfl⟩))
    · cases hv
      exact .inr (.inr (.inr ⟨_, rfl, intFits_toInt (scanNumber_digits hq) h2⟩))

theorem fits_parseScalar {t : Text} {p : Json D × Text} (h : parseScalar t = some p) : p.1.Fits := by
  rcases parseScalar_cases h with hp | ⟨b, hp⟩ | ⟨f, hp⟩ | ⟨i, hp, hi⟩ <;> rw [hp]
  · exact trivial
  · exact trivial
  · exact trivial
  · exact hi

/-- The parser gives joined strings only. -/
theorem joinPairs_scanString {t : Text} {p : PyStr × Text} (h : scanString t = some p) : joinPairs p.1 = p.1 := by
  obtain ⟨q, -, rfl⟩ := Option.map_eq_some_iff.mp h
  exact joinPairs_joinPairs q.1

theorem joinPairs_scanKey {t : Text} {k : PyStr × Text} (h : scanKey t = some k) : joinPairs k.1 = k.1 := by
  cases t with
  | nil => cases h
  | cons c t =>
    rw [scanKey] at h
    split at h
    · obtain ⟨q, hq, h⟩ := Option.bind_eq_some_iff.mp h
      have hj := joinPairs_scanString hq
      split at h
      · cases h
      · split at h
        · cases h
          exact hj
        · cases h
    · cases h

/-- A property of documents that the steps of the parser keep. -/
structure KeptByParser (P : Json D → Prop) : Prop where
  scalar : ∀ {t : Text} {p : Json D × Text}, parseScalar t = some p → P p.1
  str : ∀ {s : PyStr}, joinPairs s = s → P (.str s)
  arr : ∀ {xs : List (Json D)}, (∀ x ∈ xs, P x) → P (.arr xs)
  obj : ∀ {ms : List (PyStr × Json D)}, (∀ m ∈ ms, joinPairs m.1 = m.1 ∧ P m.2) → P (.obj ms)

/-- Every document that the parser makes has a property that its steps keep, whatever the fuel. -/
theorem KeptByParser.parseValue {P : Json D → Prop} (hP : KeptByParser P) : ∀ n : Nat,
    (∀ (t : Text) (p : Json D × Text), Json.parseValue n t = some p → P p.1) ∧
    (∀ (t : Text) (p : List (Json D) × Text), parseElems n t = some p → ∀ x ∈ p.1, P x) ∧
    (∀ (t : Text) (p : List (PyStr × Json D) × Text), parseMembers n t = some p →
      ∀ m ∈ p.1, joinPairs m.1 = m.1 ∧ P m.2)
  | 0 => ⟨fun _ _ h => by simp [Json.parseValue] at h, fun _ _ h => by simp [parseElems] at h,
      fun _ _ h => by simp [parseMembers] at h⟩
  | n + 1 => by
    obtain ⟨ihv, ihe, ihm⟩ := hP.parseValue n
    refine ⟨?_, ?_, ?_⟩
    · intro t p h
      cases t with
      | nil => cases h
      | cons c t =>
        rw [Json.parseValue] at h
        split_ifs at h
        · obtain ⟨q, hq, rfl⟩ := Option.map_eq_some_iff.mp h
          exact hP.str (joinPairs_scanString hq)
        · cases h
          exact hP.arr fun x hx => absurd hx List.not_mem_nil
        · obtain ⟨q, hq, rfl⟩ := Option.map_eq_some_iff.mp h
          exact hP.arr (ihe _ _ hq)
        · cases h
          exact hP.obj fun m hm => absurd hm List.not_mem_nil
        · obtain ⟨q, hq, rfl⟩ := Option.map_eq_some_iff.mp h
          exact hP.obj (ihm _ _ hq)
        · exact hP.scalar h
    · intro t p h
      rw [parseElems] at h
      obtain ⟨x, hx, h⟩ := Option.bind_eq_some_iff.mp h
      obtain ⟨s, -, h⟩ := Option.bind_eq_some_iff.mp h
      have h1 := ihv _ _ hx
      split at h
      · cases h
        exact List.forall_mem_singleton.mpr h1
      · obtain ⟨q, hq, rfl⟩ := Option.map_eq_some_iff.mp h
        exact List.forall_mem_cons.mpr ⟨h1, ihe _ _ hq⟩
    · intro t p h
      rw [parseMembers] at h
      obtain ⟨k, hk, h⟩ := Option.bind_eq_some_iff.mp h
      obtain ⟨v, hv, h⟩ := Option.bind_eq_some_iff.mp h
      obtain ⟨s, -, h⟩ := Option.bind_eq_some_iff.mp h
      have h1 := ihv _ _ hv
      have h2 := joinPairs_scanKey hk
      split at h
      · cases h
        exact List.forall_mem_singleton.mpr ⟨h2, h1⟩
      · obtain ⟨q, hq, rfl⟩ := Option.map_eq_some_iff.mp h
        exact List.forall_mem_cons.mpr ⟨⟨h2, h1⟩, ihm _ _ hq⟩

theorem KeptByParser.parse {P : Json D → Prop} (hP : KeptByParser P) {t : Text} {d : Json D}
    (h : Json.parse t = some d) : P d := by
  unfold Json.parse at h
  split at h
  · cases h
  · split at h
    · cases h
    · rename_i hv
      split at h
      · cases h
        exact (hP.parseValue _).1 _ _ hv
      · cases h

/-- **What is parsed fits.** -/
theorem fits_parse {t : Text} {d : Json D} (h : parse t = some d) : d.Fits :=
  KeptByParser.parse
    { scalar := fits_parseScalar
      str := fun _ => trivial
      arr := fitsElems_iff.mpr
      obj := fun hm => fitsMembers_iff.mpr fun m h => (hm m h).2 } h

end Json

/-! ## Values that were read -/

namespace PyVal

variable {D : Type} [FloatOps D]

theorem loads_eq_ok {t : Text} {v : PyVal D} (h : loads t = .ok v) : ∃ d : Json D, d.Fits ∧ v = ofJson d := by
  unfold loads at h
  split at h
  · rename_i d hd
    cases h
    exact ⟨d, Json.fits_parse hd, rfl⟩
  · exact absurd h (raise_ne_ok _ _ _)

omit [FloatOps D] in
/-- A member of an object that was read is a document that was read, or the default. -/
theorem get_ofJson {d : Json D} (hd : d.Fits) {k : PyStr} {default o : PyVal D} (h : (ofJson d).get k default = .ok o) :
    o = default ∨ ∃ e : Json D, e.Fits ∧ o = ofJson e := by
  cases d with
  | obj ms =>
    simp only [ofJson, get, lookupStr_map] at h
    cases hg : getItem k (buildDict (ofMembers ms)) with
    | none =>
      rw [hg] at h
      exact .inl (Except.ok.inj h).symm
    | some v =>
      rw [hg] at h
      have hm := mem_buildDict (getItem_mem hg)
      rw [ofMembers_eq_map] at hm
      obtain ⟨m, hm, he⟩ := List.mem_map.mp hm
      refine .inr ⟨m.2, Json.fitsMembers_iff.mp hd m hm, ?_⟩
      rw [← Except.ok.inj h]
      exact (Prod.mk.inj he).2.symm
  | _ => simp [ofJson, get] at h

/-- **A member of what `json.loads` returned can be written.** -/
theorem dumps_of_get {t : Text} {v o : PyVal D} {k : PyStr} (hv : loads t = .ok v)
    (h : v.get k (.dict []) = .ok o) : ∃ u, dumps o = .ok u := by
  obtain ⟨d, hd, rfl⟩ := loads_eq_ok hv
  rcases get_ofJson hd h with rfl | ⟨e, he, rfl⟩
  · exact ⟨_, rfl⟩
  · exact ⟨_, by rw [dumps, encode_ofJson he]; rfl⟩

/-! ## Dicts with string keys -/

theorem returned_writeMembers_str (es : List (PyStr × Except PyExc (Json D))) :
    returned (writeMembers (es.map fun p => ((PyKey.str p.1 : PyKey D), p.2))) = true ↔
      ∀ p ∈ es, returned p.2 = true := by
  induction es with
  | nil => simp [writeMembers]
  | cons p es ih =>
    obtain ⟨k, v⟩ := p
    rw [List.map_cons, writeMembers, List.forall_mem_cons, ← ih]
    cases v <;> simp [PyKey.text]

/-- **A dict with string keys can be written exactly when its values can.** -/
theorem returned_encode_named {items : List (PyKey D × PyVal D)} {es : List (PyStr × Except PyExc (Json D))}
    (h : encodeItems items = es.map fun p => (PyKey.str p.1, p.2)) :
    returned (encode (.dict items)) = true ↔ ∀ p ∈ es, returned p.2 = true := by
  rw [encode_dict_named h, returned_map, returned_writeMembers_str]
  simp only [(perm_sortMembers _).mem_iff]

theorem returned_dumps_varsDict (items : List (Text × PyVal D)) :
    returned (dumps (varsDict items)) = true ↔ ∀ p ∈ items, returned (dumps p.2) = true := by
  have he : encodeItems (items.map fun p => ((PyKey.str (pyStr p.1) : PyKey D), p.2)) =
      (items.map fun p => (pyStr p.1, encode p.2)).map fun p => (PyKey.str p.1, p.2) := by
    rw [encodeItems_eq_map, List.map_map, List.map_map]
    rfl
  rw [dumps, returned_map, varsDict, returned_encode_named he]
  simp only [List.forall_mem_map, dumps, returned_map]

/-- Lists of equal images have equal pairs of images. -/
theorem exists_mem_of_map_eq {α β γ δ : Type} {f : α → γ} {f' : α → δ} {g : β → γ} {g' : β → δ} {xs : List α}
    {ys : List β} (h : xs.map f = ys.map g) (h' : xs.map f' = ys.map g') {a : α} (ha : a ∈ xs) :
    ∃ b ∈ ys, f a = g b ∧ f' a = g' b := by
  have hp : xs.map (fun x => (f x, f' x)) = ys.map fun y => (g y, g' y) := by
    rw [← List.zip_map', ← List.zip_map', h, h']
  obtain ⟨b, hb, he⟩ := List.mem_map.mp (hp ▸ List.mem_map_of_mem ha)
  exact ⟨b, hb, (Prod.mk.inj he).1.symm, (Prod.mk.inj he).2.symm⟩

/-- **A member of a dict with string keys that is written and read back is the member, written and read back.** -/
theorem get_loads {items : List (Text × PyVal D)} (hn : (items.map Prod.fst).Nodup) {t : Text}
    (ht : dumps (varsDict items) = .ok t) {k : Text} {v : PyVal D} (hm : (k, v) ∈ items) :
    ∃ w d, loads t = .ok w ∧ encode v = .ok d ∧ w.isIn (pyStr k) = .ok true ∧
      ∀ default, w.get (pyStr k) default = .ok (ofJson d.joined) := by
  obtain ⟨doc, hd, rfl⟩ := map_eq_ok.mp ht
  obtain ⟨s, ms, hs, rfl, hk, hv⟩ := encode_dict hd
  have hperm := sortItems_perm hs
  -- the names that are read back are those of the items, so none is lost
  have hnames : ((ofMembers (Json.joinedMembers ms)).map Prod.fst).Nodup := by
    have hname : (ofMembers (Json.joinedMembers ms)).map Prod.fst = s.map (·.1.jsonName) := by
      rw [ofMembers_eq_map, Json.joinedMembers_eq_map, List.map_map, List.map_map, ← hk]
      rfl
    have hitems : (items.map fun p => ((PyKey.str (pyStr p.1) : PyKey D), p.2)).map (·.1.jsonName) =
        (items.map Prod.fst).map pyStr := by
      rw [List.map_map, List.map_map]
      exact List.map_congr_left fun p _ => joinPairs_pyStr p.1
    rw [hname, (hperm.map _).nodup_iff, hitems]
    exact hn.map pyStr_injective
  have hitem : ((PyKey.str (pyStr k) : PyKey D), v) ∈ s := hperm.mem_iff.mpr (List.mem_map.mpr ⟨_, hm, rfl⟩)
  obtain ⟨m, hmm, hmk, hmv⟩ := exists_mem_of_map_eq hk.symm hv hitem
  have hmem : (pyStr k, ofJson m.2.joined) ∈ ofMembers (Json.joinedMembers ms) := by
    rw [ofMembers_eq_map, Json.joinedMembers_eq_map, List.map_map]
    exact List.mem_map.mpr ⟨m, hmm, Prod.ext (hmk.symm.trans (joinPairs_pyStr k)) rfl⟩
  have hget : lookupStr (pyStr k) ((buildDict (ofMembers (Json.joinedMembers ms))).map
      fun p => ((PyKey.str p.1 : PyKey D), p.2)) = some (ofJson m.2.joined) := by
    rw [lookupStr_map, buildDict_of_nodup hnames, getItem_of_mem hnames hmem]
  refine ⟨_, m.2, loads_print hd, hmv, ?_, fun default => ?_⟩
  · simp only [Json.joined, ofJson, isIn, hget, Option.isSome_some]
  · simp only [Json.joined, ofJson, get, hget, Option.getD_some]

/-- A dict that is not empty is not empty when it is read back. -/
theorem truthy_joined {items : List (PyKey D × PyVal D)} (hne : items ≠ []) {d : Json D}
    (h : encode (.dict items) = .ok d) : (ofJson d.joined).truthy = true := by
  obtain ⟨s, ms, hs, rfl, hk, -⟩ := encode_dict h
  have hlen := congrArg List.length hk
  rw [List.length_map, List.length_map, (sortItems_perm hs).length_eq] at hlen
  have hms : ofMembers (Json.joinedMembers ms) ≠ [] := by
    rw [ofMembers_eq_map, Json.joinedMembers_eq_map, List.map_map, ne_eq, List.map_eq_nil_iff]
    rintro rfl
    exact hne (List.length_eq_zero_iff.mp hlen.symm)
  simp [Json.joined, ofJson, truthy, buildDict_ne_nil hms]

end PyVal

end PyLib
