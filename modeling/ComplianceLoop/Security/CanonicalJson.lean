import ComplianceLoop.PyLib.JsonValue
import ComplianceLoop.Security.HmacUtils

/-!
# What `canonical_json` identifies

The bytes that are hashed for an audit record are the text of a document, and a text determines its document once the
surrogate pairs of the strings are joined. So two values that `json.loads` can give have the same canonical bytes
exactly when they differ in the order of their members only (`canonicalJson_eq_iff`).
-/

set_option autoImplicit false

namespace ComplianceLoop

open PyLib

section

variable {D : Type} [FloatOps D]

/-- The bytes for a value are the text of the document that is written for it. -/
theorem canonicalJson_of_written {v : PyVal D} {d : Json D} (h : PyVal.Written v d) :
    canonicalJson v = .ok (utf8 d.print) := by
  rw [canonicalJson, PyVal.dumps, h.encode]
  rfl

/-- Joined documents with the same text are the same. -/
theorem eq_of_print_eq {v w : PyVal D} {d e : Json D} (hv : PyVal.Written v d) (hw : PyVal.Written w e)
    (h : d.print = e.print) : d = e := by
  have := Json.joined_eq_of_print_eq (PyVal.fits_encode hv.encode) (PyVal.fits_encode hw.encode) h
  rwa [hv.joined, hw.joined] at this

/-- **`canonical_json` gives two values that `json.loads` can give the same bytes exactly when they are equal up to the
order of the members of their dicts.** -/
theorem canonicalJson_eq_iff {v w : PyVal D} (hv : v.IsJson) (hw : w.IsJson) :
    (∃ b, canonicalJson v = .ok b ∧ canonicalJson w = .ok b) ↔ v.SameUpToOrder w := by
  obtain ⟨d, hd⟩ := PyVal.exists_written hv
  obtain ⟨e, he⟩ := PyVal.exists_written hw
  rw [canonicalJson_of_written hd, canonicalJson_of_written he, ← PyVal.encode_eq_iff hv hw, hd.encode, he.encode]
  constructor
  · rintro ⟨b, hb, hb'⟩
    have hp := utf8_injective (Except.ok.inj (hb.trans hb'.symm))
    rw [eq_of_print_eq hd he hp]
  · intro h
    exact ⟨_, rfl, by rw [Except.ok.inj h]⟩

end

/-! ## A sample -/

namespace CanonicalSample

def name (t : String) : PyKey WholeFloat := .str (pyStr t.toList)

/-- A number, the float of the same value and a lone surrogate. -/
def findings : PyVal WholeFloat := .list [.int 1, .float (.finite ⟨1⟩), .str [⟨0xD800, by decide⟩]]

def left : PyVal WholeFloat :=
  .dict [(name "pan", .none), (name "rag", .dict [(name "b", findings), (name "a", .bool true)])]

def right : PyVal WholeFloat :=
  .dict [(name "rag", .dict [(name "a", .bool true), (name "b", findings)]), (name "pan", .none)]

theorem isJson_findings : findings.IsJson :=
  ⟨show Json.intFits 1 = true by decide, ⟨⟨1⟩, rfl⟩,
    show joinPairs [(⟨0xD800, by decide⟩ : CodePoint)] = _ by decide, trivial⟩

theorem isJson_left : left.IsJson := by
  have hk : ∀ t : String, ∃ s, name t = .str s ∧ joinPairs s = s := fun t => ⟨_, rfl, joinPairs_pyStr _⟩
  have hrag : (PyVal.dict [(name "b", findings), (name "a", .bool true)]).IsJson :=
    ⟨by decide, ⟨hk _, isJson_findings⟩, ⟨hk _, trivial⟩, trivial⟩
  exact ⟨by decide, ⟨hk _, trivial⟩, ⟨hk _, hrag⟩, trivial⟩

theorem isJson_right : right.IsJson := by
  have hk : ∀ t : String, ∃ s, name t = .str s ∧ joinPairs s = s := fun t => ⟨_, rfl, joinPairs_pyStr _⟩
  have hrag : (PyVal.dict [(name "a", .bool true), (name "b", findings)]).IsJson :=
    ⟨by decide, ⟨hk _, trivial⟩, ⟨hk _, isJson_findings⟩, trivial⟩
  exact ⟨by decide, ⟨hk _, hrag⟩, ⟨hk _, trivial⟩, trivial⟩

theorem same_left_right : left.SameUpToOrder right := by
  have hf : findings.SameUpToOrder findings := ⟨rfl, rfl, rfl, trivial⟩
  have hrag : (PyVal.dict [(name "b", findings), (name "a", .bool true)]).SameUpToOrder
      (.dict [(name "a", .bool true), (name "b", findings)]) :=
    ⟨[(name "b", findings), (name "a", .bool true)], .swap _ _ _, ⟨rfl, hf⟩, ⟨rfl, rfl⟩, trivial⟩
  exact ⟨[(name "pan", .none), (name "rag", .dict [(name "a", .bool true), (name "b", findings)])], .swap _ _ _,
    ⟨rfl, rfl⟩, ⟨rfl, hrag⟩, trivial⟩

end CanonicalSample

/-- The members of two dicts, one inside the other, in another order. -/
theorem canonicalJson_eq_iff_reordered : ∃ b, canonicalJson CanonicalSample.left = .ok b ∧
    canonicalJson CanonicalSample.right = .ok b :=
  (canonicalJson_eq_iff CanonicalSample.isJson_left CanonicalSample.isJson_right).mpr CanonicalSample.same_left_right

end ComplianceLoop
