/-
# What the intake approves and the publication refuses

An approved release passes the later stages if and only if its evidence identifier, its profile and
its version fit the narrower forms there; everything else that a stage checks again was checked by
the intake.
-/
import Supplementary.Security.Forms
import Supplementary.Python.Sha256

namespace Supplementary.Security

open Supplementary PyStr

/-! ## 1. What a later stage accepts -/

/-- What a hand-off binding holds besides the version and the evidence identifier. -/
structure HandoffFields where
  sourceSha : {s : PyStr // PyStr.isHex 40 s = true}
  sourceRunId : {n : Int // 0 < n}
  sourceRunAttempt : {n : Int // 0 < n}
  ciRunId : {n : Int // 0 < n}
  ciRunAttempt : {n : Int // 0 < n}
  galaxyRequired : Bool

/-- The binding of a Security release. -/
def HandoffFields.binding (f : HandoffFields) (evidenceId version : PyStr) : Value := .dict [
  ("candidateName", .str (Handoff.archiveName version)), ("ciRunAttempt", .int f.ciRunAttempt.1),
  ("ciRunId", .int f.ciRunId.1), ("galaxyRequired", .bool f.galaxyRequired),
  ("releaseVersion", .str version), ("securityEvidenceId", .str evidenceId),
  ("securityRelease", .bool true), ("sourceRunAttempt", .int f.sourceRunAttempt.1),
  ("sourceRunId", .int f.sourceRunId.1), ("sourceSha", .str f.sourceSha.1)]

/-- The hand-off accepts the two, whatever else the binding holds. -/
def HandoffAccepts (evidenceId version : PyStr) : Prop :=
  ∀ f : HandoffFields, Handoff.validateBinding (f.binding evidenceId version) = .ok ()

/-- The receipt script does not refuse the two, whatever else it is given. -/
def RequestAccepts (evidenceId version : PyStr) : Prop :=
  ∀ rt manifest (c : Receipt.Candidate) controllerSha, c.evidenceId = evidenceId →
    c.version = version →
      Receipt.buildRequest rt manifest c controllerSha ≠
        .error (.valueError "Security evidence ID is invalid") ∧
      Receipt.buildRequest rt manifest c controllerSha ≠
        .error (.valueError "Security release version must be stable semantic versioning")

/-- Every later stage accepts an approved release. -/
def Publishable (approved : Approved) (metadata registry : Value) (now : Int) : Prop :=
  Evidence.loadMetadata (Evidence.canonicalLocation approved.version) metadata registry now =
      .ok () ∧
    RequestAccepts approved.evidenceId approved.version ∧
      HandoffAccepts approved.evidenceId approved.version

/-- The forms that all stages share. -/
def FitsEveryStage (approved : Approved) : Prop :=
  approved.evidenceId.length ≤ 128 ∧ (∀ c ∈ approved.profile.codePoints, isUpper c = false) ∧
    approved.version.length ≤ 175

/-! ## 2. What the intake has checked -/

section

variable {rt : Runtime} {request metadata registry : Value} {repository : PyStr} {now : Int}
  {approved : Approved}

theorem requireForm_eq_ok {name s : PyStr} {label message : String} {form : PyStr → Bool}
    (h : requireForm request name label form message = .ok s) : isTrimmed s = true ∧ form s = true := by
  simp only [requireForm, bind_eq_ok, require_eq_ok, pure_eq_ok] at h
  obtain ⟨s', hs', _, hform, rfl⟩ := h
  unfold requireString at hs'
  split at hs'
  · simp only [bind_eq_ok, require_eq_ok, pure_eq_ok] at hs'
    obtain ⟨_, htrimmed, _, -, rfl⟩ := hs'
    exact ⟨htrimmed, hform⟩
  · cases hs'

/-- An approved release has the forms of the intake. -/
structure HasForms (approved : Approved) : Prop where
  evidenceId : isTrimmed approved.evidenceId = true ∧ isEvidenceId approved.evidenceId = true
  version : isTrimmed approved.version = true ∧ isVersion approved.version = true
  profile : isTrimmed approved.profile = true ∧ isProfile approved.profile = true

theorem hasForms_of_validateRequest (h : validateRequest rt request repository now = .ok approved) :
    HasForms approved := by
  simp only [validateRequest, bind_eq_ok, pure_eq_ok] at h
  obtain ⟨_, -, _, -, _, -, _, -, _, -, _, -, _, -, _, -, _, hid, _, hversion, _, hprofile, _, -,
    _, -, _, -, _, -, _, -, _, -, rfl⟩ := h
  exact ⟨requireForm_eq_ok hid, requireForm_eq_ok hversion, requireForm_eq_ok hprofile⟩

/-- The two scripts read a text alike, and the generator asks for less. -/
theorem generator_requireString {value : Value} {label label' : String} {s : PyStr}
    (h : requireString value label = .ok s) : Evidence.requireString value label' = .ok s := by
  unfold requireString at h
  split at h
  · next t =>
    simp only [bind_eq_ok, require_eq_ok, pure_eq_ok] at h
    obtain ⟨_, htrimmed, _, -, rfl⟩ := h
    rw [Evidence.requireString, require, raiseUnless_of htrimmed]
    rfl
  · cases h

theorem generator_timestamp {value : Value} {label label' : String} {n : Int}
    (h : timestamp value label = .ok n) : Evidence.timestamp value label' = .ok n := by
  simp only [timestamp, readInstant, bind_eq_ok, require_eq_ok] at h
  obtain ⟨s, hs, _, hform, hn⟩ := h
  rw [Evidence.timestamp, generator_requireString hs, ok_bind, readInstant, require,
    raiseUnless_of hform, ok_bind]
  split at hn
  · exact hn
  · cases hn

theorem pyEq_of_isInt {value : Value} {n : Int} (h : isInt value n = true) :
    value.pyEq (.int n) = true := by
  cases value with
  | int m =>
    obtain rfl : m = n := by simpa [isInt] using h
    simp [Value.pyEq, Value.number?]
  | _ => cases h

theorem hasKeys_swap {value : Value} {a b : PyStr} (h : value.hasKeys [a, b] = true) :
    value.hasKeys [b, a] = true := by
  simp only [Value.hasKeys, Bool.and_eq_true, decide_eq_true_eq, List.subset_def, List.mem_cons,
    List.not_mem_nil, or_false] at h ⊢
  constructor
  · intro s hs
    exact (h.1 hs).symm
  · intro s hs
    exact h.2 hs.symm

theorem mem_entries_of_get {value selected : Value} {key : PyStr} (h : value.get key = selected)
    (hdict : selected.isDict = true) : (key, selected) ∈ value.entries := by
  cases value with
  | dict entries =>
    rw [Value.get, Value.find?] at h
    cases hfound : lookup entries key with
    | none =>
      rw [hfound] at h
      subst h
      cases hdict
    | some v =>
      rw [hfound] at h
      obtain rfl : v = selected := h
      exact mem_of_lookup hfound
  | _ =>
    subst h
    cases hdict

/-- A registry that the intake accepts is one for the generator. -/
theorem generator_loadProfiles {profile : PyStr}
    (h : validateProfileRegistry registry profile = .ok ()) :
    Evidence.loadProfiles registry profile = .ok () := by
  simp only [validateProfileRegistry, bind_eq_ok, require_eq_ok, exactKeys, forM_eq_ok] at h
  obtain ⟨_, hkeys, _, hversion, _, ⟨hdict, -⟩, _, hall, hselected, heligible⟩ := h
  have hmem := mem_entries_of_get rfl hselected
  have hprofile := hall _ hmem
  simp only [validateProfile, bind_eq_ok, require_eq_ok, exactKeys] at hprofile
  obtain ⟨_, -, _, -, _, hprofileKeys, description, hdescription, -⟩ := hprofile
  simp only [Evidence.loadProfiles, exactKeys, bind_eq_ok, require_eq_ok]
  exact ⟨(), hkeys, (), ⟨pyEq_of_isInt hversion, hdict⟩, (), hselected, (), hasKeys_swap hprofileKeys,
    (), heligible, description, generator_requireString hdescription, rfl⟩

theorem evidence_requireString {s : PyStr} {label : String} (h : isTrimmed s = true) :
    Evidence.requireString (.str s) label = .ok s := by
  rw [Evidence.requireString, require, raiseUnless_of h]
  rfl

theorem generator_checkValidity {validity : Value} {created notBefore expires : Int}
    (hkeys : validity.hasKeys validityKeys = true) (hrevoked : (validity.get "revoked").isFalse = true)
    (hcreated : timestamp (metadata.get "createdAt") "createdAt" = .ok created)
    (hbefore : timestamp (validity.get "notBefore") "validity.notBefore" = .ok notBefore)
    (hexpires : timestamp (validity.get "expiresAt") "validity.expiresAt" = .ok expires)
    (hinside : notBefore ≤ created ∧ created < expires) (hnow : isWithin now notBefore expires = true) :
    Evidence.checkValidity metadata validity now = .ok () := by
  simp only [Evidence.checkValidity, exactKeys, bind_eq_ok, require_eq_ok]
  exact ⟨(), hkeys, created, generator_timestamp hcreated, notBefore, generator_timestamp hbefore,
    expires, generator_timestamp hexpires, (), hrevoked, (), by omega, (), hinside, hnow⟩

/-- Of approved metadata the generator refuses only the evidence identifier or the profile. -/
theorem generator_loadMetadata_iff (hforms : HasForms approved)
    (hmetadata : validateMetadataPayload metadata approved now = .ok ())
    (hregistry : validateProfileRegistry registry approved.profile = .ok ()) :
    Evidence.loadMetadata (Evidence.canonicalLocation approved.version) metadata registry now =
      .ok () ↔ Evidence.isEvidenceId approved.evidenceId = true ∧
        Evidence.isProfileId approved.profile = true := by
  simp only [validateMetadataPayload, bind_eq_ok, require_eq_ok, exactKeys, Value.isText_iff] at hmetadata
  obtain ⟨_, hkeys, _, hschema, _, hid, _, hversion, _, hprofile, _, hidentifiers, affected, haffected,
    _, ⟨hsemver, hne⟩, _, hconsumers, _, hdict, _, hvalidityKeys, _, hrevoked, created, hcreated,
    notBefore, hbefore, expires, hexpires, _, hinside, hnow⟩ := hmetadata
  have hvalidity :=
    generator_checkValidity hvalidityKeys hrevoked hcreated hbefore hexpires hinside hnow
  simp only [Evidence.loadMetadata, exactKeys, bind_eq_ok, require_eq_ok, hid, hversion, hprofile,
    evidence_requireString hforms.evidenceId.1, evidence_requireString hforms.version.1,
    evidence_requireString hforms.profile.1, generator_requireString haffected,
    generator_loadProfiles hregistry, hvalidity, Except.ok.injEq, exists_eq_left', exists_const, true_and]
  constructor
  · rintro ⟨-, -, hform, -, -, -, -, -, hform', -⟩
    exact ⟨hform, hform'⟩
  · rintro ⟨hform, hform'⟩
    exact ⟨hkeys, pyEq_of_isInt hschema, hform, hidentifiers, hsemver, hforms.version.2, hne,
      hconsumers, hform', hdict, trivial⟩

/-! ## 3. The other two stages -/

variable {evidenceId version : PyStr}

theorem positive_int {n : Int} {label : String} (h : 0 < n) :
    Handoff.positive (.int n) label = .ok () := by
  rw [Handoff.positive, require, raiseUnless_of h]

/-- Of a well-formed binding the hand-off checks the forms of what it carries. -/
theorem validateBinding_iff {f : HandoffFields} :
    Handoff.validateBinding (f.binding evidenceId version) = .ok () ↔
      isSemver version = true ∧ Handoff.isName (Handoff.archiveName version) = true ∧
        isEvidenceId evidenceId = true := by
  have hkeys : (f.binding evidenceId version).hasKeys Handoff.bindingKeys = true := by
    have hset : (f.binding evidenceId version).keySet = Handoff.bindingKeys := rfl
    rw [Value.hasKeys, hset]
    simp
  have hnumbers : (["sourceRunId", "sourceRunAttempt", "ciRunId", "ciRunAttempt"].forM fun key =>
      Handoff.positive ((f.binding evidenceId version).get (ofString key)) key) = .ok () := by
    simp only [forM_eq_ok, List.forall_mem_cons]
    exact ⟨positive_int f.sourceRunId.2, positive_int f.sourceRunAttempt.2,
      positive_int f.ciRunId.2, positive_int f.ciRunAttempt.2, nofun⟩
  have hsha : (f.binding evidenceId version).get "sourceSha" = .str f.sourceSha.1 := rfl
  have hname : (f.binding evidenceId version).get "candidateName" =
      .str (Handoff.archiveName version) := rfl
  have hversion : (f.binding evidenceId version).get "releaseVersion" = .str version := rfl
  have hsecurity : (f.binding evidenceId version).get "securityRelease" = .bool true := rfl
  have hgalaxy : (f.binding evidenceId version).get "galaxyRequired" = .bool f.galaxyRequired := rfl
  have hid : (f.binding evidenceId version).get "securityEvidenceId" = .str evidenceId := rfl
  simp only [Handoff.validateBinding, bind_eq_ok, require_eq_ok, hkeys, hsha, hname, hversion, hsecurity,
    hgalaxy, hid, hnumbers, Handoff.isForm, Value.isBool, Value.isTrue, Value.isText_iff,
    exists_const, if_true]
  constructor
  · rintro ⟨-, -, -, hsemver, hform, -, -, hevidence⟩
    exact ⟨hsemver, hform, hevidence⟩
  · rintro ⟨hsemver, hform, hevidence⟩
    exact ⟨⟨rfl, trivial⟩, f.sourceSha.2, trivial, hsemver, hform, trivial, ⟨trivial, trivial⟩, hevidence⟩

/-- A hand-off with the least numbers. -/
def someFields : HandoffFields :=
  { sourceSha := ⟨⟨List.replicate 40 48⟩, by decide⟩, sourceRunId := ⟨1, by decide⟩,
    sourceRunAttempt := ⟨1, by decide⟩, ciRunId := ⟨1, by decide⟩, ciRunAttempt := ⟨1, by decide⟩,
    galaxyRequired := true }

theorem handoff_accepts_iff (hid : isEvidenceId evidenceId = true) (hversion : isSemver version = true) :
    HandoffAccepts evidenceId version ↔ version.length ≤ 175 := by
  rw [← handoff_name_iff hversion]
  constructor
  · intro h
    exact (validateBinding_iff.mp (h someFields)).2.1
  · intro h f
    exact validateBinding_iff.mpr ⟨hversion, h, hid⟩

/-- Not a refusal of the evidence identifier or of the version. -/
def OtherError (e : PyError) : Prop :=
  e ≠ .valueError "Security evidence ID is invalid" ∧
    e ≠ .valueError "Security release version must be stable semantic versioning"

theorem raises_item (value : Value) (key : PyStr) : Raises OtherError (value.item key) := by
  unfold Value.item
  split
  · split
    · exact raises_ok _
    · exact raises_error ⟨by simp, by simp⟩
  · exact raises_error ⟨by simp, by simp⟩

theorem raises_requestCandidate (c : Receipt.Candidate) (manifest artifact : Value) :
    Raises OtherError (Receipt.requestCandidate c manifest artifact) := by
  refine (raises_item _ _).bind fun repository _ => ?_
  refine (raises_item _ _).bind fun name _ => ?_
  refine (raises_item _ _).bind fun digest _ => ?_
  refine (raises_item _ _).bind fun size _ => ?_
  refine (raises_item _ _).bind fun store _ => ?_
  refine (raises_item _ _).bind fun storeUrl _ => ?_
  refine (raises_item _ _).bind fun url _ => ?_
  exact raises_ok _

theorem raises_canonical (rt : Runtime) (value : Value) : Raises OtherError (canonical rt value) := by
  refine (dumps_raises rt.maxDepth value).mono fun e he => ?_
  cases he <;> exact ⟨by simp, by simp⟩

theorem raises_positiveInteger {n : Int} {label : String}
    (h : OtherError (.valueError s!"{label} must be a positive integer")) :
    Raises OtherError (Receipt.positiveInteger (.int n) label) :=
  (raises_raiseUnless h).bind fun _ _ => raises_ok _

theorem request_accepts_iff (hversion : isSemver version = true) :
    RequestAccepts evidenceId version ↔ Receipt.isEvidenceId evidenceId = true := by
  constructor
  · intro h
    by_contra hid
    let c : Receipt.Candidate :=
      { sourceSha := someFields.sourceSha.1, sourceRunId := 1, sourceRunAttempt := 1, evidenceId,
        version }
    refine (h ⟨fun _ => "", 0, fun text => ⟨text, none⟩, []⟩ .none c someFields.sourceSha.1 rfl
      rfl).1 ?_
    rw [Receipt.buildRequest, Receipt.require,
      raiseUnless_of ⟨someFields.sourceSha.2, someFields.sourceSha.2⟩, ok_bind, Receipt.require,
      raiseUnless_of_not hid]
    rfl
  · rintro hid rt manifest c controllerSha rfl rfl
    have hraises : Raises OtherError (Receipt.buildRequest rt manifest c controllerSha) := by
      refine Raises.bind (raises_raiseUnless ⟨by simp, by simp⟩) fun _ _ => ?_
      rw [Receipt.require, raiseUnless_of hid, ok_bind, Receipt.require,
        raiseUnless_of (show Receipt.isVersion c.version = true from hversion), ok_bind]
      refine (raises_positiveInteger ⟨by decide, by decide⟩).bind fun _ _ => ?_
      refine (raises_positiveInteger ⟨by decide, by decide⟩).bind fun _ _ => ?_
      refine (raises_item _ _).bind fun artifact _ => ?_
      refine (raises_item _ _).bind fun name _ => ?_
      refine Raises.bind (raises_raiseUnless ⟨by simp, by simp⟩) fun _ _ => ?_
      refine (raises_requestCandidate _ _ _).bind fun candidate _ => ?_
      refine (raises_canonical _ _).bind fun json _ => ?_
      exact raises_ok _
    exact ⟨fun h => (hraises _ h).1 rfl, fun h => (hraises _ h).2 rfl⟩

/-! ## 4. The stages together -/

/-- **What the intake approves, every later stage accepts exactly if it fits every stage.** -/
theorem publishable_iff (hrequest : validateRequest rt request repository now = .ok approved)
    (hmetadata : validateMetadataPayload metadata approved now = .ok ())
    (hregistry : validateProfileRegistry registry approved.profile = .ok ()) :
    Publishable approved metadata registry now ↔ FitsEveryStage approved := by
  have hforms := hasForms_of_validateRequest hrequest
  rw [Publishable, FitsEveryStage, generator_loadMetadata_iff hforms hmetadata hregistry,
    request_accepts_iff hforms.version.2, handoff_accepts_iff hforms.evidenceId.2 hforms.version.2,
    receipt_evidence_iff hforms.evidenceId.2, generator_evidence_iff hforms.evidenceId.2,
    generator_profile_iff hforms.profile.2]
  constructor
  · rintro ⟨⟨hid, hprofile⟩, -, hversion⟩
    exact ⟨hid, hprofile, hversion⟩
  · rintro ⟨hid, hprofile, hversion⟩
    exact ⟨⟨hid, hprofile⟩, hid, hversion⟩

end

/-! ## 5. Two releases -/

def sampleRuntime : Runtime :=
  { sha256 := Sha256.hexdigest, maxDepth := 900, float := fun text => ⟨text, none⟩, ownSource := [] }

def sampleCommit (digit : Nat) : PyStr := ⟨List.replicate 40 digit⟩

def sampleDigest : PyStr := "sha256:" ++ ⟨List.replicate 64 48⟩

def sampleVersion : PyStr := "3.2.5"

def sampleProfile : PyStr := "lit.supplementary/profile-v1"

/-- The chain that a request for an evidence identifier must name. -/
def sampleChain (evidenceId : PyStr) : PyStr :=
  match computeChainId sampleRuntime (sampleCommit 97) (sampleCommit 98) sampleDigest evidenceId
      sampleVersion sampleProfile with
  | .ok chainId => chainId
  | .error _ => ""

def sampleStart : Value := .str "2026-08-01T00:00:00Z"

def sampleEnd : Value := .str "2026-09-01T00:00:00Z"

def sampleRequest (evidenceId : PyStr) : Value := .dict [
  ("schemaVersion", .int 2), ("event", .str "mlx90-security-release"),
  ("repository", .str producerRepository), ("repositoryId", .str producerRepositoryId),
  ("baseSha", .str (sampleCommit 97)), ("candidateRef", .str "develop"),
  ("candidateBaseSha", .str (sampleCommit 97)), ("candidateHeadSha", .str (sampleCommit 98)),
  ("candidateDiffSha256", .str sampleDigest), ("evidenceId", .str evidenceId),
  ("fixedVersion", .str sampleVersion), ("acceptanceProfile", .str sampleProfile),
  ("metadataSha256", .str sampleDigest), ("chainId", .str (sampleChain evidenceId)),
  ("issuedAt", sampleStart), ("expiresAt", sampleEnd), ("humanActions", .int 0)]

def sampleMetadata (evidenceId : PyStr) : Value := .dict [
  ("schemaVersion", .int 1), ("evidenceId", .str evidenceId), ("createdAt", sampleStart),
  ("securityIdentifiers", .list [.str "CVE-2026-12345"]), ("affectedVersion", .str "3.2.4"),
  ("fixedVersion", .str sampleVersion), ("consumers", .list [.str consumerRepository]),
  ("acceptanceProfile", .str sampleProfile),
  ("validity", .dict [("notBefore", sampleStart), ("expiresAt", sampleEnd),
    ("revoked", .bool false)])]

def sampleRegistry : Value := .dict [("schemaVersion", .int 1), ("profiles", .dict [(sampleProfile,
  .dict [("description", .str "Verify the package."), ("releaseEligible", .bool true)])])]

/-- A day after the start of the sample's validity, in microseconds. -/
def sampleNow : Int := 1785628800000000

def sampleApproved (evidenceId : PyStr) : Approved :=
  { evidenceId, version := sampleVersion, profile := sampleProfile }

/-- An evidence identifier of 134 characters, the most that the intake admits. -/
def longestEvidenceId : PyStr := "MLX90-" ++ ⟨List.replicate 128 65⟩

theorem longest_evidence_id_refused : ¬ ∀ rt request metadata registry repository now approved,
    validateRequest rt request repository now = .ok approved →
      validateMetadataPayload metadata approved now = .ok () →
        validateProfileRegistry registry approved.profile = .ok () →
          Publishable approved metadata registry now := by
  intro h
  have hpublishable := h sampleRuntime (sampleRequest longestEvidenceId)
    (sampleMetadata longestEvidenceId) sampleRegistry producerRepository sampleNow
    (sampleApproved longestEvidenceId) (by decide +kernel) (by decide +kernel) (by decide +kernel)
  have haccepts := (request_accepts_iff (by decide)).mp hpublishable.2.1
  exact absurd haccepts (by decide +kernel)

theorem publishable_iff_sample :
    Publishable (sampleApproved "MLX90-ABC") (sampleMetadata "MLX90-ABC") sampleRegistry sampleNow ↔
      FitsEveryStage (sampleApproved "MLX90-ABC") :=
  @publishable_iff sampleRuntime (sampleRequest "MLX90-ABC") (sampleMetadata "MLX90-ABC")
    sampleRegistry producerRepository sampleNow (sampleApproved "MLX90-ABC") (by decide +kernel)
    (by decide +kernel) (by decide +kernel)

end Supplementary.Security
