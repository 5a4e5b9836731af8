import ComplianceLoop.PyLib.Json

/-!
# What is printed is parsed

* `parseValue_print`: a document followed by nothing that could extend a number is read back joined, by mutual
  induction on documents, elements and members, with the length of the text bounding the fuel;
* `parse_print` and `joined_eq_of_print_eq`: the whole text, and the injectivity of printing;
* `parseValue_fuel`: more fuel than twice the length of the text changes nothing.
-/

set_option autoImplicit false

namespace PyLib.Json

variable {D : Type} [FloatText D]

/-! ## First characters -/

/-- A number starts with a digit, or with a minus sign and a digit. -/
def NumHead (t : Text) : Prop :=
  ∃ c r, c.isDigit = true ∧ (t = c :: r ∨ t = '-' :: c :: r)

theorem numHead_text {n : NumToken} (hn : n.WF) (t : Text) : NumHead (n.text ++ t) := by
  obtain ⟨neg, int, frac, exp⟩ := n
  obtain ⟨hne, hall⟩ := hn.int_digits
  cases int with
  | nil => exact absurd rfl hne
  | cons c ds =>
    refine ⟨c, ds ++ (NumToken.fracText frac ++ NumToken.expText exp) ++ t, hall c List.mem_cons_self, ?_⟩
    cases neg <;> simp [NumToken.text]

omit [FloatText D] in
/-- No literal starts like a number. -/
theorem literals_numHead {t : Text} (h : NumHead t) :
    ((literals (D := D)).findSome? fun l => (stripPrefix l.1 t).map fun r => (l.2, r)) = none := by
  obtain ⟨c, r, hc, rfl | rfl⟩ := h
  · have h1 := ne_of_isDigit (d := 'n') hc (by decide)
    have h2 := ne_of_isDigit (d := 't') hc (by decide)
    have h3 := ne_of_isDigit (d := 'f') hc (by decide)
    have h4 := ne_of_isDigit (d := 'N') hc (by decide)
    have h5 := ne_of_isDigit (d := 'I') hc (by decide)
    have h6 := ne_of_isDigit (d := '-') hc (by decide)
    simp [literals, stripPrefix, h1.symm, h2.symm, h3.symm, h4.symm, h5.symm, h6.symm]
  · have h := ne_of_isDigit (d := 'I') hc (by decide)
    simp [literals, stripPrefix, h.symm]

theorem parseScalar_number {n : NumToken} (hn : n.WF) {v : Json D} (hv : ofNumber n = some v) {r : Text}
    (hr : NumStop r) : parseScalar (n.text ++ r) = some (v, r) := by
  rw [parseScalar, literals_numHead (numHead_text hn r), Option.none_or, parseNumber, scanNumber_text hn hr]
  simp [hv]

/-- A scalar is read by `parseScalar`. -/
theorem parseValue_scalar {n : Nat} {c : Char} {t : Text} (h1 : c ≠ '"') (h2 : c ≠ '[') (h3 : c ≠ '{') :
    parseValue (D := D) (n + 1) (c :: t) = parseScalar (c :: t) := by
  rw [parseValue, if_neg h1, if_neg h2, if_neg h3]

theorem parseValue_number {n : NumToken} (hn : n.WF) {v : Json D} (hv : ofNumber n = some v) {r : Text}
    (hr : NumStop r) (k : Nat) : parseValue (k + 1) (n.text ++ r) = some (v, r) := by
  have hs := parseScalar_number hn hv hr
  obtain ⟨c, r', hc, h | h⟩ := numHead_text hn r
  · rw [h] at hs ⊢
    rw [parseValue_scalar (ne_of_isDigit hc (by decide)) (ne_of_isDigit hc (by decide))
      (ne_of_isDigit hc (by decide)), hs]
  · rw [h] at hs ⊢
    rw [parseValue_scalar (by decide) (by decide) (by decide), hs]

/-- A text that starts with no white space, no closing bracket and no byte order mark. -/
def Opens (t : Text) : Prop := ∃ c r, t = c :: r ∧ isWs c = false ∧ c ≠ ']' ∧ c ≠ '}' ∧ c ≠ '\uFEFF'

theorem opens_of_numHead {t : Text} (h : NumHead t) : Opens t := by
  obtain ⟨c, r, hc, rfl | rfl⟩ := h
  · have h1 := ne_of_isDigit (d := ' ') hc (by decide)
    have h2 := ne_of_isDigit (d := '\t') hc (by decide)
    have h3 := ne_of_isDigit (d := '\n') hc (by decide)
    have h4 := ne_of_isDigit (d := '\r') hc (by decide)
    exact ⟨c, r, rfl, by simp [isWs, h1, h2, h3, h4], ne_of_isDigit hc (by decide), ne_of_isDigit hc (by decide),
      ne_of_isDigit hc (by decide)⟩
  · exact ⟨'-', c :: r, rfl, by decide, by decide, by decide, by decide⟩

theorem opens_print (d : Json D) (t : Text) : Opens (print d ++ t) := by
  have key : ∀ (c : Char) (r : Text), isWs c = false → c ≠ ']' → c ≠ '}' → c ≠ '\uFEFF' → Opens (c :: r) :=
    fun c r h1 h2 h3 h4 => ⟨c, r, rfl, h1, h2, h3, h4⟩
  cases d with
  | null => exact key 'n' _ (by decide) (by decide) (by decide) (by decide)
  | bool b => cases b <;> exact key _ _ (by decide) (by decide) (by decide) (by decide)
  | int i => exact opens_of_numHead (numHead_text (NumToken.wf_ofInt i) t)
  | float f =>
    cases f with
    | finite d => exact opens_of_numHead (numHead_text (FloatText.token_wf d) t)
    | inf => exact key 'I' _ (by decide) (by decide) (by decide) (by decide)
    | negInf => exact key '-' _ (by decide) (by decide) (by decide) (by decide)
    | nan => exact key 'N' _ (by decide) (by decide) (by decide) (by decide)
  | str s => exact key '"' _ (by decide) (by decide) (by decide) (by decide)
  | arr xs => exact key '[' _ (by decide) (by decide) (by decide) (by decide)
  | obj ms => exact key '{' _ (by decide) (by decide) (by decide) (by decide)

theorem skipWs_of_opens {t : Text} (h : Opens t) : skipWs t = t := by
  obtain ⟨c, r, rfl, hc, -, -, -⟩ := h
  simp [skipWs, hc]

theorem head?_ne_of_opens {t : Text} (h : Opens t) :
    t.head? ≠ some ']' ∧ t.head? ≠ some '}' ∧ t.head? ≠ some '\uFEFF' := by
  obtain ⟨c, r, rfl, -, h1, h2, h3⟩ := h
  simp [h1, h2, h3]

theorem opens_printElems (x : Json D) (xs : List (Json D)) (t : Text) : Opens (printElems (x :: xs) ++ t) := by
  cases xs with
  | nil => simpa [printElems] using opens_print x (']' :: t)
  | cons y ys => simpa [printElems] using opens_print x (',' :: (printElems (y :: ys) ++ t))

theorem opens_printMembers (m : PyStr × Json D) (ms : List (PyStr × Json D)) (t : Text) :
    Opens (printMembers (m :: ms) ++ t) := by
  cases ms with
  | nil => exact ⟨'"', _, rfl, by decide, by decide, by decide, by decide⟩
  | cons m' ms => exact ⟨'"', _, rfl, by decide, by decide, by decide, by decide⟩

/-! ## Separators and keys -/

theorem scanSep_close {close : Char} (hc : isWs close = false) (t : Text) :
    scanSep close (close :: t) = some (true, t) := by
  simp [scanSep, skipWs, hc]

theorem scanSep_comma {close : Char} (hc : close ≠ ',') (t : Text) :
    scanSep close (',' :: t) = some (false, skipWs t) := by
  simp [scanSep, skipWs, isWs, hc.symm]

theorem scanKey_quote (k : PyStr) (t : Text) : scanKey (quote k ++ ':' :: t) = some (joinPairs k, skipWs t) := by
  have h : quote k ++ ':' :: t = '"' :: (escape k ++ '"' :: ':' :: t) := by simp [quote]
  rw [h, scanKey, if_pos rfl, scanString_escape]
  simp [skipWs, isWs]

/-! ## The round trip -/

mutual

/-- **A printed document is read back joined.** -/
theorem parseValue_print : ∀ (d : Json D) (n : Nat) (r : Text), d.Fits → NumStop r → 2 * (print d).length < n →
    parseValue n (print d ++ r) = some (d.joined, r)
  | d, 0, _, _, _, hn => absurd hn (Nat.not_lt_zero _)
  | .null, n + 1, r, _, _, _ => rfl
  | .bool true, n + 1, r, _, _, _ => rfl
  | .bool false, n + 1, r, _, _, _ => rfl
  | .int i, n + 1, r, hi, hr, _ => by
    refine parseValue_number (NumToken.wf_ofInt i) ?_ hr n
    simp only [Fits, intFits, decide_eq_true_eq] at hi
    rw [ofNumber, NumToken.isFloat_ofInt, NumToken.toInt_ofInt]
    simp [NumToken.ofInt, hi, joined]
  | .float .inf, n + 1, r, _, _, _ => rfl
  | .float .negInf, n + 1, r, _, _, _ => rfl
  | .float .nan, n + 1, r, _, _, _ => rfl
  | .float (.finite d), n + 1, r, _, hr, _ => by
    refine parseValue_number (FloatText.token_wf d) ?_ hr n
    rw [ofNumber, if_pos (FloatText.token_isFloat d), FloatText.ofToken_token]
    rfl
  | .str s, n + 1, r, _, _, _ => by
    simp only [print, quote, List.cons_append, List.append_assoc, List.nil_append]
    rw [parseValue, if_pos rfl, scanString_escape]
    rfl
  | .arr [], n + 1, r, _, _, _ => rfl
  | .arr (x :: xs), n + 1, r, hf, hr, hn => by
    have ho := opens_printElems x xs r
    simp only [print, List.length_cons, List.cons_append] at hn ⊢
    rw [parseValue, if_neg (by decide), if_pos rfl, skipWs_of_opens ho, if_neg (head?_ne_of_opens ho).1,
      parseElems_print x xs n r hf (by omega)]
    rfl
  | .obj [], n + 1, r, _, _, _ => rfl
  | .obj (m :: ms), n + 1, r, hf, hr, hn => by
    have ho := opens_printMembers m ms r
    simp only [print, List.length_cons, List.cons_append] at hn ⊢
    rw [parseValue, if_neg (by decide), if_neg (by decide), if_pos rfl, skipWs_of_opens ho,
      if_neg (head?_ne_of_opens ho).2.1, parseMembers_print m ms n r hf (by omega)]
    rfl

theorem parseElems_print : ∀ (x : Json D) (xs : List (Json D)) (n : Nat) (r : Text), FitsElems (x :: xs) →
    2 * (printElems (x :: xs)).length < n + 1 →
    parseElems n (printElems (x :: xs) ++ r) = some (joinedElems (x :: xs), r)
  | x, [], 0, _, _, hn => by simp [printElems] at hn
  | x, _ :: _, 0, _, _, hn => by simp [printElems] at hn
  | x, [], n + 1, r, hf, hn => by
    simp only [printElems, List.length_append, List.length_singleton, List.append_assoc, List.singleton_append]
      at hn ⊢
    rw [parseElems, parseValue_print x n _ hf.1 (numStop_cons (by simp)) (by omega), Option.bind_some,
      scanSep_close (by decide)]
    rfl
  | x, y :: ys, n + 1, r, hf, hn => by
    simp only [printElems, List.length_append, List.length_cons, List.append_assoc, List.cons_append] at hn ⊢
    rw [parseElems, parseValue_print x n _ hf.1 (numStop_cons (by simp)) (by omega), Option.bind_some,
      scanSep_comma (by decide), Option.bind_some]
    simp only [Bool.false_eq_true, ↓reduceIte]
    rw [skipWs_of_opens (opens_printElems y ys r), parseElems_print y ys n r hf.2 (by omega)]
    rfl

theorem parseMembers_print : ∀ (m : PyStr × Json D) (ms : List (PyStr × Json D)) (n : Nat) (r : Text),
    FitsMembers (m :: ms) → 2 * (printMembers (m :: ms)).length < n + 1 →
    parseMembers n (printMembers (m :: ms) ++ r) = some (joinedMembers (m :: ms), r)
  | (k, v), [], 0, _, _, hn => by simp [printMembers] at hn
  | (k, v), _ :: _, 0, _, _, hn => by simp [printMembers] at hn
  | (k, v), [], n + 1, r, hf, hn => by
    simp only [printMembers, List.length_append, List.length_cons, List.length_nil, List.append_assoc,
      List.cons_append, List.nil_append] at hn ⊢
    rw [parseMembers, scanKey_quote, Option.bind_some]
    simp only
    rw [skipWs_of_opens (opens_print v _), parseValue_print v n _ hf.1 (numStop_cons (by simp)) (by omega),
      Option.bind_some, scanSep_close (by decide)]
    rfl
  | (k, v), m :: ms, n + 1, r, hf, hn => by
    simp only [printMembers, List.length_append, List.length_cons, List.append_assoc, List.cons_append] at hn ⊢
    rw [parseMembers, scanKey_quote, Option.bind_some]
    simp only
    rw [skipWs_of_opens (opens_print v _), parseValue_print v n _ hf.1 (numStop_cons (by simp)) (by omega),
      Option.bind_some, scanSep_comma (by decide), Option.bind_some]
    simp only [Bool.false_eq_true, ↓reduceIte]
    rw [skipWs_of_opens (opens_printMembers m ms r), parseMembers_print m ms n r hf.2 (by omega)]
    rfl

end

/-- `json.loads` undoes `json.dumps`, but for the joining of surrogate pairs. -/
theorem parse_print (d : Json D) (hd : d.Fits) : parse (print d) = some d.joined := by
  have ho := opens_print d []
  rw [List.append_nil] at ho
  have hp := parseValue_print d (2 * (print d).length + 2) [] hd numStop_nil (by omega)
  rw [List.append_nil] at hp
  rw [parse, if_neg (head?_ne_of_opens ho).2.2, skipWs_of_opens ho, hp]
  rfl

/-- Documents with the same text are the same up to joining. -/
theorem joined_eq_of_print_eq {d e : Json D} (hd : d.Fits) (he : e.Fits) (h : print d = print e) :
    d.joined = e.joined := by
  have := parse_print d hd
  rw [h, parse_print e he] at this
  exact (Option.some.inj this).symm

/-! ## Enough fuel -/

theorem skipWs_length (t : Text) : (skipWs t).length ≤ t.length := (List.dropWhile_suffix _).length_le

theorem stripPrefix_length : ∀ {p t r : Text}, stripPrefix p t = some r → r.length + p.length = t.length
  | [], t, r, h => by cases h; rfl
  | _ :: _, [], r, h => by cases h
  | a :: p, b :: t, r, h => by
    rw [stripPrefix] at h
    split at h
    · have := stripPrefix_length h
      simp only [List.length_cons]
      omega
    · cases h

theorem parseScalar_length {t : Text} {p : Json D × Text} (h : parseScalar t = some p) : p.2.length < t.length := by
  rw [parseScalar, Option.or_eq_some_iff] at h
  rcases h with h | ⟨-, h⟩
  · obtain ⟨l, hl, h⟩ := List.exists_of_findSome?_eq_some h
    obtain ⟨r, hr, rfl⟩ := Option.map_eq_some_iff.mp h
    have := stripPrefix_length hr
    have : 0 < l.1.length := by
      simp only [literals, List.mem_cons, List.not_mem_nil, or_false] at hl
      rcases hl with rfl | rfl | rfl | rfl | rfl | rfl <;> simp
    simp only
    omega
  · obtain ⟨q, hq, h⟩ := Option.bind_eq_some_iff.mp h
    obtain ⟨v, -, rfl⟩ := Option.map_eq_some_iff.mp h
    exact scanNumber_length hq

theorem scanSep_length {close : Char} {t : Text} {s : Bool × Text} (h : scanSep close t = some s) :
    s.2.length < t.length := by
  have hw := skipWs_length t
  unfold scanSep at h
  split at h
  · cases h
  · rename_i c r hr
    rw [hr, List.length_cons] at hw
    split at h
    · cases h
      simp only
      omega
    · split at h
      · cases h
        have := skipWs_length r
        simp only
        omega
      · cases h

theorem scanKey_length {t : Text} {k : PyStr × Text} (h : scanKey t = some k) : k.2.length < t.length := by
  cases t with
  | nil => cases h
  | cons c t =>
    rw [scanKey] at h
    split at h
    · obtain ⟨p, hp, h⟩ := Option.bind_eq_some_iff.mp h
      have h1 := scanString_length hp
      have h2 := skipWs_length p.2
      split at h
      · cases h
      · rename_i d r hr
        rw [hr, List.length_cons] at h2
        split at h
        · cases h
          have := skipWs_length r
          simp only [List.length_cons]
          omega
        · cases h
    · cases h

/-- Parsing consumes something. -/
theorem parse_length : ∀ n : Nat,
    (∀ (t : Text) (p : Json D × Text), parseValue n t = some p → p.2.length < t.length) ∧
    (∀ (t : Text) (p : List (Json D) × Text), parseElems n t = some p → p.2.length < t.length) ∧
    (∀ (t : Text) (p : List (PyStr × Json D) × Text), parseMembers n t = some p → p.2.length < t.length)
  | 0 => ⟨fun _ _ h => by simp [parseValue] at h, fun _ _ h => by simp [parseElems] at h,
      fun _ _ h => by simp [parseMembers] at h⟩
  | n + 1 => by
    obtain ⟨ihv, ihe, ihm⟩ := parse_length n
    refine ⟨?_, ?_, ?_⟩
    · intro t p h
      cases t with
      | nil => cases h
      | cons c t =>
        have hw := skipWs_length t
        rw [parseValue] at h
        split_ifs at h with h1 h2 h3 h4 h5
        · obtain ⟨q, hq, rfl⟩ := Option.map_eq_some_iff.mp h
          have := scanString_length hq
          simp only [List.length_cons]
          omega
        · cases h
          simp only [List.length_tail, List.length_cons]
          omega
        · obtain ⟨q, hq, rfl⟩ := Option.map_eq_some_iff.mp h
          have := ihe _ _ hq
          simp only [List.length_cons]
          omega
        · cases h
          simp only [List.length_tail, List.length_cons]
          omega
        · obtain ⟨q, hq, rfl⟩ := Option.map_eq_some_iff.mp h
          have := ihm _ _ hq
          simp only [List.length_cons]
          omega
        · exact parseScalar_length h
    · intro t p h
      rw [parseElems] at h
      obtain ⟨x, hx, h⟩ := Option.bind_eq_some_iff.mp h
      obtain ⟨s, hs, h⟩ := Option.bind_eq_some_iff.mp h
      have h1 := ihv _ _ hx
      have h2 := scanSep_length hs
      split at h
      · cases h
        simp only
        omega
      · obtain ⟨q, hq, rfl⟩ := Option.map_eq_some_iff.mp h
        have := ihe _ _ hq
        simp only
        omega
    · intro t p h
      rw [parseMembers] at h
      obtain ⟨k, hk, h⟩ := Option.bind_eq_some_iff.mp h
      obtain ⟨v, hv, h⟩ := Option.bind_eq_some_iff.mp h
      obtain ⟨s, hs, h⟩ := Option.bind_eq_some_iff.mp h
      have h0 := scanKey_length hk
      have h1 := ihv _ _ hv
      have h2 := scanSep_length hs
      split at h
      · cases h
        simp only
        omega
      · obtain ⟨q, hq, rfl⟩ := Option.map_eq_some_iff.mp h
        have := ihm _ _ hq
        simp only
        omega

/-- **Twice the length of the text is fuel enough.** -/
theorem parse_fuel : ∀ n m : Nat,
    (∀ t : Text, 2 * t.length < n → 2 * t.length < m → parseValue (D := D) n t = parseValue m t) ∧
    (∀ t : Text, 2 * t.length + 1 < n → 2 * t.length + 1 < m → parseElems (D := D) n t = parseElems m t) ∧
    (∀ t : Text, 2 * t.length + 1 < n → 2 * t.length + 1 < m → parseMembers (D := D) n t = parseMembers m t)
  | 0, _ => ⟨fun _ h => absurd h (by omega), fun _ h => absurd h (by omega), fun _ h => absurd h (by omega)⟩
  | _ + 1, 0 => ⟨fun _ _ h => absurd h (by omega), fun _ _ h => absurd h (by omega), fun _ _ h => absurd h (by omega)⟩
  | n + 1, m + 1 => by
    obtain ⟨ihv, ihe, ihm⟩ := parse_fuel n m
    obtain ⟨hlv, -, -⟩ := parse_length (D := D) m
    refine ⟨?_, ?_, ?_⟩
    · intro t hn hm
      cases t with
      | nil => rfl
      | cons c t =>
        have hw := skipWs_length t
        rw [List.length_cons] at hn hm
        rw [parseValue, parseValue, ihe _ (by omega) (by omega), ihm _ (by omega) (by omega)]
    · intro t hn hm
      rw [parseElems, parseElems, ihv t (by omega) (by omega)]
      refine Option.bind_congr fun x hx => Option.bind_congr fun s hs => ?_
      have h1 := hlv _ _ hx
      have h2 := scanSep_length hs
      rw [ihe s.2 (by omega) (by omega)]
    · intro t hn hm
      rw [parseMembers, parseMembers]
      refine Option.bind_congr fun k hk => ?_
      have h0 := scanKey_length hk
      rw [ihv k.2 (by omega) (by omega)]
      refine Option.bind_congr fun v hv => Option.bind_congr fun s hs => ?_
      have h1 := hlv _ _ hv
      have h2 := scanSep_length hs
      rw [ihm s.2 (by omega) (by omega)]

/-- No text is refused for want of fuel. -/
theorem parseValue_fuel {n : Nat} {t : Text} (hn : 2 * t.length < n) :
    parseValue (D := D) n t = parseValue (2 * t.length + 1) t :=
  (parse_fuel n _).1 t hn (by omega)

end PyLib.Json
