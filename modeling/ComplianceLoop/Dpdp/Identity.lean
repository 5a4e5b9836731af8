import ComplianceLoop.Dpdp.AccessRequest
import ComplianceLoop.Security.PanDigests

/-!
# Which requests reach an application

The plaintext of a PAN is never stored: an application has its HMAC, and a request of its holder comes with another one.
The rows are never hashed again. So after any run of the processes that hash and of the statements that write, a request
reaches an application exactly when it is its applicant's, with the same PAN, and hashed under the key that the
application was hashed under (`reached_iff`).
-/

set_option autoImplicit false

namespace ComplianceLoop

open PyLib Transition

/-! ## One request -/

/-- The conditions of the three handlers. -/
structure IsOf (a : Application) (applicantId : Uuid) (digest : Text) : Prop where
  applicant : a.applicantId = applicantId
  digest : a.panHmac = digest
  production : a.isDemo = false

theorem conditions_iff {a : Application} {u : Uuid} {digest : Text} :
    (a.applicantId = u && a.panHmac = digest && !a.isDemo) = true ↔ IsOf a u digest := by
  rw [Bool.and_eq_true, Bool.and_eq_true, decide_eq_true_eq, decide_eq_true_eq, Bool.not_eq_true']
  exact ⟨fun h => ⟨h.1.1, h.1.2, h.2⟩, fun h => ⟨⟨h.applicant, h.digest⟩, h.production⟩⟩

theorem AccessRequest.selects_iff {req : AccessRequest} {u : Uuid} {a : ApplicationRow} :
    req.selects u a = true ↔ IsOf a.toApplication u req.requestingPanHmac := conditions_iff

theorem ErasureRequest.selects_iff {req : ErasureRequest} {u : Uuid} {a : Application} :
    req.selects u a = true ↔ IsOf a u req.requestingPanHmac := conditions_iff

theorem WithdrawalRequest.selects_iff {req : WithdrawalRequest} {u : Uuid} {a : Application} :
    req.selects u a = true ↔ IsOf a u req.requestingPanHmac := conditions_iff

theorem ShowsSame.isOf_iff {a b : ApplicationRow} (h : ShowsSame a b) (u : Uuid) (digest : Text) :
    IsOf b.toApplication u digest ↔ IsOf a.toApplication u digest := by
  have hshown : ∀ a : ApplicationRow, IsOf a.toApplication u digest ↔ IsOf a.shown.toApplication u digest :=
    fun _ => ⟨fun h => ⟨h.1, h.2, h.3⟩, fun h => ⟨h.1, h.2, h.3⟩⟩
  rw [hshown b, h.shown, ← hshown a]

/-- The row is in the table under its id, and shows the same. -/
structure Stored (row : ApplicationRow) (db : HeldData) : Prop where
  found : ∃ b ∈ db.applications, b.id = row.id
  shows : ∀ b ∈ db.applications, b.id = row.id → ShowsSame row b

/-- **A row that is stored stays.** -/
theorem Stored.step {row : ApplicationRow} {db db' : HeldData} {l : AccessStep} (h : Stored row db)
    (hs : accessSystem.step db l = some db') : Stored row db' := by
  rcases HeldData.step_applications hs with ⟨a, hnew, hrows⟩ | ⟨g, hg, hrows⟩
  · have hid : a.id ≠ row.id := by
      obtain ⟨b, hb, hid⟩ := h.found
      exact fun he => hnew (he ▸ hid ▸ List.mem_map_of_mem hb)
    obtain ⟨b, hb, hbid⟩ := h.found
    refine ⟨⟨b, hrows ▸ List.mem_append_left _ hb, hbid⟩, fun c hc hcid => ?_⟩
    rw [hrows] at hc
    rcases List.mem_append.mp hc with hc | hc
    · exact h.shows c hc hcid
    · exact absurd (List.mem_singleton.mp hc ▸ hcid) hid
  · obtain ⟨b, hb, hbid⟩ := h.found
    refine ⟨⟨g b, hrows ▸ List.mem_map_of_mem hb, (hg b).id_eq.trans hbid⟩, fun c hc hcid => ?_⟩
    rw [hrows] at hc
    obtain ⟨a, ha, rfl⟩ := List.mem_map.mp hc
    exact (h.shows a ha ((hg a).id_eq.symm.trans hcid)).trans (hg a)

section

variable {F : Type} (float : Nat → Int → F)

/-- The holder of the digest gets at the application: an access request lists it, an erasure request wipes it, and a
withdrawal of consent marks it. -/
structure Reached (db : HeldData) (id : Uuid) (applicantId digest : Text) : Prop where
  listed : ∀ req : AccessRequest, req.applicantId = applicantId → req.requestingPanHmac = digest →
    ∃ r, handleAccessRequest float req db = .ok r ∧ id.str ∈ r.dataHeld.map ApplicationSummary.applicationId
  erased : ∀ req : ErasureRequest, req.applicantId = applicantId → req.requestingPanHmac = digest →
    ∃ b ∈ (db.erased req).applications, b.id = id ∧ b.retentionWiped = true
  withdrawn : ∀ req : WithdrawalRequest, req.applicantId = applicantId → req.requestingPanHmac = digest →
    ∃ b ∈ (db.withdrawn req).applications, b.id = id ∧ b.dpdpConsentGiven = false

/-- The requests with the digest neither list the application nor write it. -/
structure Unreached (db : HeldData) (id : Uuid) (applicantId digest : Text) : Prop where
  listed : ∀ req : AccessRequest, req.applicantId = applicantId → req.requestingPanHmac = digest →
    ∀ r, handleAccessRequest float req db = .ok r → id.str ∉ r.dataHeld.map ApplicationSummary.applicationId
  erased : ∀ req : ErasureRequest, req.applicantId = applicantId → req.requestingPanHmac = digest →
    ∀ b : ApplicationRow, b.id = id → (b ∈ (db.erased req).applications ↔ b ∈ db.applications)
  withdrawn : ∀ req : WithdrawalRequest, req.applicantId = applicantId → req.requestingPanHmac = digest →
    ∀ b : ApplicationRow, b.id = id → (b ∈ (db.withdrawn req).applications ↔ b ∈ db.applications)

variable {float} {db : HeldData} {row : ApplicationRow} {applicantId digest : Text} {u : Uuid}

/-- The ids in an answer. -/
theorem mem_dataHeld {req : AccessRequest} (hu : Uuid.parse req.applicantId = some u) {r : DataAccessResponse F}
    (h : handleAccessRequest float req db = .ok r) {id : Uuid} :
    id.str ∈ r.dataHeld.map ApplicationSummary.applicationId ↔
      ∃ b ∈ db.applications, b.id = id ∧ IsOf b.toApplication u req.requestingPanHmac := by
  rw [handleAccessRequest, hu] at h
  simp only at h
  split at h
  · cases h
  · obtain rfl := Except.ok.inj h
    rw [List.map_map, List.mem_map]
    constructor
    · rintro ⟨b, hb, hid⟩
      obtain ⟨hb, hsel⟩ := mem_query.mp hb
      have hstr : b.id.str = id.str := hid
      have hparse : some b.id = some id := by rw [← Uuid.parse_str b.id, hstr, Uuid.parse_str]
      exact ⟨b, hb, Option.some.inj hparse, AccessRequest.selects_iff.mp hsel⟩
    · rintro ⟨b, hb, rfl, hof⟩
      exact ⟨b, mem_query.mpr ⟨hb, AccessRequest.selects_iff.mpr hof⟩, rfl⟩

theorem Stored.reached (h : Stored row db) (hu : Uuid.parse applicantId = some u)
    (hof : IsOf row.toApplication u digest) : Reached float db row.id applicantId digest := by
  obtain ⟨b, hb, hid⟩ := h.found
  have hbof : IsOf b.toApplication u digest := ((h.shows b hb hid).isOf_iff u digest).mpr hof
  constructor
  · rintro req rfl rfl
    have hsel : b ∈ query (req.selects u) ApplicationRow.newest req.applicationTies db.applications :=
      mem_query.mpr ⟨hb, AccessRequest.selects_iff.mpr hbof⟩
    have hok : ∃ r, handleAccessRequest float req db = .ok r := by
      rw [handleAccessRequest, hu]
      simp only
      rw [if_neg fun he => List.ne_nil_of_mem hsel (List.isEmpty_iff.mp he)]
      exact ⟨_, rfl⟩
    obtain ⟨r, hr⟩ := hok
    exact ⟨r, hr, (mem_dataHeld hu hr).mpr ⟨b, hb, hid, hbof⟩⟩
  · rintro req rfl rfl
    rw [db.applications_erased hu]
    exact ⟨_, List.mem_map_of_mem hb, (showsSame_wipeIds _ _ b).id_eq.trans hid,
      retentionWiped_over hb (ErasureRequest.selects_iff.mpr hbof)⟩
  · rintro req rfl rfl
    rw [db.applications_withdrawn hu]
    refine ⟨_, List.mem_map_of_mem hb, (showsSame_mark req u b).2.id_eq.trans hid, ?_⟩
    rw [ApplicationRow.over, WithdrawalRequest.mark, if_pos (WithdrawalRequest.selects_iff.mpr hbof)]

/-- Rows that a statement leaves. -/
theorem mem_map_of_left {g : ApplicationRow → ApplicationRow} {id : Uuid} (hid : ∀ c, (g c).id = c.id)
    (hleft : ∀ c ∈ db.applications, c.id = id → g c = c) {b : ApplicationRow} (hb : b.id = id) :
    b ∈ db.applications.map g ↔ b ∈ db.applications := by
  rw [List.mem_map]
  constructor
  · rintro ⟨c, hc, rfl⟩
    rw [hleft c hc ((hid c).symm.trans hb)]
    exact hc
  · exact fun h => ⟨b, h, hleft b h hb⟩

theorem Stored.unreached (h : Stored row db)
    (hnot : ∀ u, Uuid.parse applicantId = some u → ¬ IsOf row.toApplication u digest) :
    Unreached float db row.id applicantId digest := by
  have hother : ∀ u, Uuid.parse applicantId = some u → ∀ c ∈ db.applications, c.id = row.id →
      ¬ IsOf c.toApplication u digest := fun u hu c hc hid hof =>
    hnot u hu (((h.shows c hc hid).isOf_iff u digest).mp hof)
  constructor
  · rintro req rfl rfl r hr hmem
    cases hu : Uuid.parse req.applicantId with
    | none =>
      rw [handleAccessRequest, hu] at hr
      cases hr
    | some u =>
      obtain ⟨b, hb, hid, hof⟩ := (mem_dataHeld hu hr).mp hmem
      exact hother u hu b hb hid hof
  · rintro req rfl rfl b hb
    cases hu : Uuid.parse req.applicantId with
    | none => rw [db.erased_of_none hu]
    | some u =>
      rw [db.applications_erased hu]
      refine mem_map_of_left (fun c => (showsSame_wipeIds _ _ c).id_eq) (fun c hc hid => ?_) hb
      have hkept : ¬ (req.unwiped u db.base).contains c.id = true := by
        rw [List.contains_eq_mem, decide_eq_true_eq]
        intro hmem
        obtain ⟨a, ha, haid⟩ := List.mem_map.mp hmem
        obtain ⟨ha, hsel⟩ := List.mem_filter.mp (List.mem_filter.mp ha).1
        obtain ⟨b, hb, rfl⟩ := List.mem_map.mp ha
        exact hother u hu b hb (haid.trans hid) (ErasureRequest.selects_iff.mp hsel)
      rw [ApplicationRow.over, wipeIds, if_neg hkept]
  · rintro req rfl rfl b hb
    cases hu : Uuid.parse req.applicantId with
    | none => rw [db.withdrawn_of_none hu]
    | some u =>
      rw [db.applications_withdrawn hu]
      refine mem_map_of_left (fun c => (showsSame_mark req u c).2.id_eq) (fun c hc hid => ?_) hb
      have hkept : ¬ req.selects u c.toApplication = true := fun hsel =>
        hother u hu c hc hid (WithdrawalRequest.selects_iff.mp hsel)
      rw [ApplicationRow.over, WithdrawalRequest.mark, if_neg hkept]

end

/-! ## Runs -/

/-- The tables, and the processes that use them. -/
structure Ingestion where
  held : HeldData
  processes : Nat → Process

/-- The steps. -/
inductive IngestionStep where
  /-- A process takes in an application: it hashes the PAN, and stores the digest. -/
  | submit (i : Nat) (pan : Text) (a : ApplicationRow)
  /-- A process hashes the PAN of a request or of an entry of a watchlist. -/
  | hashPan (i : Nat) (pan : Text)
  /-- Any other statement. -/
  | write (l : AccessStep)
  | restart (i : Nat) (environ : TextDict)
  /-- `os.environ[key] = value`. -/
  | setenv (i : Nat) (key value : Text)
  | invalidate (i : Nat)
  | callSecrets (i : Nat) (vault : Vault) (c : SecretsCall)

namespace Ingestion

/-- The processes have started and called nothing. -/
def start (held : HeldData) (environ : Nat → TextDict) : Ingestion := ⟨held, fun i => Process.start (environ i)⟩

/-- A process after a call. -/
def goOn (s : Ingestion) (i : Nat) (p : Process) : Ingestion :=
  { s with processes := Function.update s.processes i p }

variable (C : Crypto) (s : Ingestion)

/-- One step; `none` where the id of the row is there already. A PAN that is refused stores nothing. -/
def step : IngestionStep → Option Ingestion
  | .submit i pan a =>
    match (s.processes i).hmacPan C pan with
    | (.error _, p) => some (s.goOn i p)
    | (.ok digest, p) =>
      (accessSystem.step s.held (.submit { a with panHmac := digest })).map fun held => { s.goOn i p with held := held }
  | .hashPan i pan => some (s.goOn i ((s.processes i).hmacPan C pan).2)
  | .write l => (accessSystem.step s.held l).map fun held => { s with held := held }
  | .restart i environ => some (s.goOn i (Process.start environ))
  | .setenv i key value =>
    match ComplianceLoop.setenv (s.processes i).environ key value with
    | .error _ => some s
    | .ok environ => some (s.goOn i { s.processes i with environ := environ })
  | .invalidate i => some (s.goOn i (s.processes i).invalidatePanKeyCache)
  | .callSecrets i vault c => some (s.goOn i ((s.processes i).callSecrets vault c).2)

end Ingestion

/-- The processes and the tables as a system. -/
def ingestionSystem (C : Crypto) : System Ingestion IngestionStep := ⟨Ingestion.step C⟩

variable {C : Crypto} {s t : Ingestion} {l : IngestionStep}

/-- Every key that is cached has been loaded. -/
def KeysLoaded (s : Ingestion) : Prop := ∀ i, PanKeyLoaded (s.processes i)

theorem KeysLoaded.goOn (h : KeysLoaded s) (i : Nat) {p : Process} (hp : PanKeyLoaded p) : KeysLoaded (s.goOn i p) := by
  intro j
  show PanKeyLoaded (Function.update s.processes i p j)
  by_cases hj : j = i
  · subst hj
    rwa [Function.update_self]
  · rw [Function.update_of_ne hj]
    exact h j

theorem KeysLoaded.step (h : KeysLoaded s) (hs : (ingestionSystem C).step s l = some t) : KeysLoaded t := by
  cases l with
  | submit i pan a =>
    have hp := (h i).hmacPan (C := C) pan
    simp only [ingestionSystem, Ingestion.step] at hs
    cases hd : (s.processes i).hmacPan C pan with
    | mk r p =>
      rw [hd] at hs hp
      cases r with
      | error e =>
        obtain rfl := Option.some.inj hs
        exact h.goOn i hp
      | ok digest =>
        obtain ⟨held, -, rfl⟩ := Option.map_eq_some_iff.mp hs
        exact h.goOn i hp
  | hashPan i pan =>
    obtain rfl := Option.some.inj hs
    exact h.goOn i ((h i).hmacPan pan)
  | write l =>
    obtain ⟨held, -, rfl⟩ := Option.map_eq_some_iff.mp hs
    exact h
  | restart i environ =>
    obtain rfl := Option.some.inj hs
    exact h.goOn i (panKeyLoaded_start environ)
  | setenv i key value =>
    simp only [ingestionSystem, Ingestion.step] at hs
    split at hs
    · exact Option.some.inj hs ▸ h
    · obtain rfl := Option.some.inj hs
      exact h.goOn i (h i)
  | invalidate i =>
    obtain rfl := Option.some.inj hs
    exact h.goOn i (.invalidate _)
  | callSecrets i vault c =>
    obtain rfl := Option.some.inj hs
    exact h.goOn i ((h i).callSecrets vault c)

/-- What a step does to the tables. -/
theorem held_step (hs : (ingestionSystem C).step s l = some t) :
    t.held = s.held ∨ ∃ l', accessSystem.step s.held l' = some t.held := by
  cases l with
  | submit i pan a =>
    simp only [ingestionSystem, Ingestion.step] at hs
    split at hs
    · exact .inl (Option.some.inj hs ▸ rfl)
    · obtain ⟨held, hheld, rfl⟩ := Option.map_eq_some_iff.mp hs
      exact .inr ⟨_, hheld⟩
  | write l =>
    obtain ⟨held, hheld, rfl⟩ := Option.map_eq_some_iff.mp hs
    exact .inr ⟨l, hheld⟩
  | setenv i key value =>
    simp only [ingestionSystem, Ingestion.step] at hs
    split at hs <;> exact .inl (Option.some.inj hs ▸ rfl)
  | hashPan i pan => exact .inl (Option.some.inj hs ▸ rfl)
  | restart i environ => exact .inl (Option.some.inj hs ▸ rfl)
  | invalidate i => exact .inl (Option.some.inj hs ▸ rfl)
  | callSecrets i vault c => exact .inl (Option.some.inj hs ▸ rfl)

theorem stored_step {row : ApplicationRow} (h : Stored row s.held) (hs : (ingestionSystem C).step s l = some t) :
    Stored row t.held := by
  rcases held_step hs with he | ⟨l', hl⟩
  · rwa [he]
  · exact h.step hl

/-- An application that comes in is stored with the digest. -/
theorem stored_submit {i : Nat} {pan digest : Text} {a : ApplicationRow}
    (hd : ((s.processes i).hmacPan C pan).1 = .ok digest) (hs : (ingestionSystem C).step s (.submit i pan a) = some t) :
    Stored { a with panHmac := digest } t.held := by
  simp only [ingestionSystem, Ingestion.step] at hs
  cases hp : (s.processes i).hmacPan C pan with
  | mk r p =>
    rw [hp] at hs hd
    obtain rfl : r = .ok digest := hd
    obtain ⟨held, hheld, rfl⟩ := Option.map_eq_some_iff.mp hs
    simp only [accessSystem, HeldData.step] at hheld
    split at hheld
    · cases hheld
    · rename_i hnew
      obtain rfl := Option.some.inj hheld
      refine ⟨⟨_, List.mem_append_right _ (List.mem_singleton_self _), rfl⟩, fun b hb hid => ?_⟩
      rcases List.mem_append.mp hb with hb | hb
      · exact absurd (List.mem_map.mpr ⟨b, hb, hid⟩) hnew
      · exact List.mem_singleton.mp hb ▸ .refl _

/-- A request is entitled to an application: it is the applicant's, with the PAN of the application, and hashed under
the key that the application was hashed under. -/
structure Entitled (p q : Process) (a : ApplicationRow) (pan applicantId requestPan : Text) : Prop where
  applicant : Uuid.parse applicantId = some a.applicantId
  production : a.isDemo = false
  alike : HashAlike p q pan requestPan

section

variable {F : Type} {float : Nat → Int → F}

theorem Reached.not_unreached {db : HeldData} {id : Uuid} {applicantId digest : Text} (now : DateTime)
    (h : Reached float db id applicantId digest) : ¬ Unreached float db id applicantId digest := by
  intro hu
  obtain ⟨r, hr, hmem⟩ := h.listed ⟨applicantId, digest, id, now, .table _, .table _⟩ rfl rfl
  exact hu.listed _ rfl rfl r hr hmem

variable (float) in
/-- **After any run, the requests that reach an application are those that are entitled to it; all others leave it as it
is.** -/
theorem reached_iff (hb : C.HmacBinding) (hk : C.HmacKeyed) {held : HeldData} {environ : Nat → TextDict}
    {before after : List IngestionStep}
    (hbefore : (ingestionSystem C).run (Ingestion.start held environ) before = some s)
    {i : Nat} {pan digest : Text} (hdigest : ((s.processes i).hmacPan C pan).1 = .ok digest) {a : ApplicationRow}
    (hafter : (ingestionSystem C).run s (.submit i pan a :: after) = some t) (j : Nat) {requestPan request : Text}
    (hrequest : ((t.processes j).hmacPan C requestPan).1 = .ok request) (applicantId : Text) :
    (Reached float t.held a.id applicantId request ↔
        Entitled (s.processes i) (t.processes j) a pan applicantId requestPan) ∧
      (Unreached float t.held a.id applicantId request ↔
        ¬ Entitled (s.processes i) (t.processes j) a pan applicantId requestPan) := by
  have hloaded : KeysLoaded s := System.invariant_run KeysLoaded.step (fun i => panKeyLoaded_start (environ i)) hbefore
  have hloaded' : KeysLoaded t := System.invariant_run KeysLoaded.step hloaded hafter
  obtain ⟨m, hm, hrun⟩ := System.run_cons_eq_some.mp hafter
  have hstored : Stored { a with panHmac := digest } t.held :=
    System.invariant_run (I := fun s : Ingestion => Stored { a with panHmac := digest } s.held) stored_step
      (stored_submit hdigest hm) hrun
  have hdigests : digest = request ↔ HashAlike (s.processes i) (t.processes j) pan requestPan :=
    digest_eq_iff hb hk (hloaded i) (hloaded' j) hdigest hrequest
  have hreached : Entitled (s.processes i) (t.processes j) a pan applicantId requestPan →
      Reached float t.held a.id applicantId request := fun h =>
    hstored.reached h.applicant ⟨rfl, hdigests.mpr h.alike, h.production⟩
  have hunreached : ¬ Entitled (s.processes i) (t.processes j) a pan applicantId requestPan →
      Unreached float t.held a.id applicantId request := fun h =>
    hstored.unreached fun u hu hof => h ⟨hof.applicant ▸ hu, hof.production, hdigests.mp hof.digest⟩
  constructor
  · refine ⟨fun h => ?_, hreached⟩
    by_contra hnot
    exact h.not_unreached a.submittedAt (hunreached hnot)
  · exact ⟨fun h hent => (hreached hent).not_unreached a.submittedAt h, hunreached⟩

end

namespace IdentitySample

/-- An application of the first applicant; the HMAC is put in when it is stored. -/
def row : ApplicationRow :=
  ⟨WipeSample.application 1, WipeSample.midnight 0, "personal".toList, 5000000, 12, "v1".toList, WipeSample.midnight 0⟩

def start : Ingestion := Ingestion.start ⟨[], [], []⟩ fun _ => KeySample.environ

/-- What comes after the application: a decision, and a new start of the process that took it in. -/
def after : List IngestionStep :=
  [.write (.decide ⟨⟨1⟩, ⟨3⟩, 1, false, .approve, 9000, WipeSample.midnight 1⟩), .restart 0 KeySample.environ]

end IdentitySample

/-- Another process hashes the PAN in lower case and with blanks. -/
theorem reached_iff_pan :
    ∃ t digest request,
      (ingestionSystem KeySample.panCrypto).run IdentitySample.start
          (.submit 0 KeySample.pan IdentitySample.row :: IdentitySample.after) = some t ∧
        ((IdentitySample.start.processes 0).hmacPan KeySample.panCrypto KeySample.pan).1 = .ok digest ∧
          ((t.processes 1).hmacPan KeySample.panCrypto " abcde1234f ".toList).1 = .ok request ∧
            Reached (fun _ n => n) t.held ⟨1⟩ (Uuid.mk 1).str request := by
  have hbefore : (ingestionSystem KeySample.panCrypto).run
      (Ingestion.start ⟨[], [], []⟩ fun _ => KeySample.environ) [] = some IdentitySample.start := rfl
  have hrun : (ingestionSystem KeySample.panCrypto).run IdentitySample.start
      (.submit 0 KeySample.pan IdentitySample.row :: IdentitySample.after) = some _ := rfl
  have hdigest : ((IdentitySample.start.processes 0).hmacPan KeySample.panCrypto KeySample.pan).1 = .ok _ := rfl
  have hrequest : ((Process.start KeySample.environ).hmacPan KeySample.panCrypto " abcde1234f ".toList).1 = .ok _ := rfl
  have hreached := reached_iff (fun _ n => n) (knownCrypto_hmacBinding _ _ _) (knownCrypto_hmacKeyed _ _ _)
    hbefore hdigest hrun 1 hrequest (Uuid.mk 1).str
  exact ⟨_, _, _, hrun, hdigest, hrequest, hreached.1.mpr ⟨Uuid.parse_str ⟨1⟩, rfl, by decide, rfl⟩⟩

end ComplianceLoop
