import RusAuthExample.CallbackFilter

/-!
The start of the host. It refuses to start without what production needs, and a
middleware keeps the health endpoints to the management port. The configuration, the
platform and what the pipeline does behind the middleware are outside code.
-/
namespace RusAuthExample
open Utf16Text

def equalsIgnoreCase (left right : Str) : Bool := left.map asciiUpper == right.map asciiUpper

structure Configuration (RusAuthOptions : Type) where
  environmentName : Str
  keyRingPath : Option Str
  certificatePath : Option Str
  certificateKeyPath : Option Str
  /-- GetValue: 0 without a value, an exception for a text that is no number. -/
  managementPort : Except Exn Int
  /-- The sections that are required, with the callback token where it is set. -/
  rusAuthSection : Except Exn Unit
  exampleSection : Except Exn (Option Str)
  rusAuthOptions : Except Exn (Option RusAuthOptions)
  /-- The verdict of the validators of the RusAuth options. -/
  rusAuthValidation : Except Exn Unit

structure Platform (Certificate : Type) where
  createDirectory : Str → Except Exn Unit
  createFromPemFile : Str → Str → Except Exn Certificate
  /-- Whatever else the framework does before it serves requests. -/
  listen : Except Exn Unit

structure KeyRing (Certificate : Type) where
  path : Option Str
  certificate : Option Certificate

structure Host (Certificate RusAuthOptions : Type) where
  keyRing : KeyRing Certificate
  clientOptions : RusAuthOptions
  callbackOptions : ExampleCallbackOptions
  managementPort : Int

def isProduction (environmentName : Str) : Bool :=
  equalsIgnoreCase environmentName (lit "Production")

def togetherMessage : Str :=
  lit "DataProtection certificate and private-key paths must be configured together."

def productionMessage : Str :=
  lit "Production requires a persistent Data Protection key ring encrypted with a dedicated certificate."

section Start
variable {Certificate RusAuthOptions : Type}

def persistKeysToFileSystem (platform : Platform Certificate) (c : Configuration RusAuthOptions) :
    Except Exn (Option Str) :=
  if isNullOrWhiteSpace c.keyRingPath then pure none
  else do
    platform.createDirectory (c.keyRingPath.getD [])
    pure c.keyRingPath

def requireTogether (c : Configuration RusAuthOptions) : Except Exn Unit :=
  if isNullOrWhiteSpace c.certificatePath != isNullOrWhiteSpace c.certificateKeyPath then
    throw (.invalidOperation togetherMessage)
  else pure ()

def protectKeysWithCertificate (platform : Platform Certificate)
    (c : Configuration RusAuthOptions) : Except Exn (Option Certificate) :=
  if isNullOrWhiteSpace c.certificatePath then pure none
  else do
    let certificatePath := c.certificatePath.getD []
    let certificate ← platform.createFromPemFile certificatePath (c.certificateKeyPath.getD [])
    pure (some certificate)

def requireInProduction (c : Configuration RusAuthOptions) : Except Exn Unit :=
  if isProduction c.environmentName &&
      (isNullOrWhiteSpace c.keyRingPath || isNullOrWhiteSpace c.certificatePath) then
    throw (.invalidOperation productionMessage)
  else pure ()

def addDataProtection (platform : Platform Certificate) (c : Configuration RusAuthOptions) :
    Except Exn (KeyRing Certificate) := do
  let path ← persistKeysToFileSystem platform c
  requireTogether c
  let certificate ← protectKeysWithCertificate platform c
  requireInProduction c
  return ⟨path, certificate⟩

def getRequiredConfiguration (sectionName : Str) (value : Except Exn (Option RusAuthOptions)) :
    Except Exn RusAuthOptions := do
  match ← value with
  | some options => return options
  | none =>
    throw (.invalidOperation
      (lit "Configuration section '" ++ sectionName ++ lit "' is missing or invalid."))

/-- Both sections are required before the client gets its options. -/
def addRusAuthExample (c : Configuration RusAuthOptions) :
    Except Exn (Option Str × RusAuthOptions) := do
  c.rusAuthSection
  let callbackBearerToken ← c.exampleSection
  let clientOptions ← getRequiredConfiguration (lit "RusAuth") c.rusAuthOptions
  return (callbackBearerToken, clientOptions)

/-- Main up to the moment at which the host serves requests. The options are
    validated last, when it starts. -/
def main (platform : Platform Certificate) (c : Configuration RusAuthOptions) :
    Except Exn (Host Certificate RusAuthOptions) := do
  let keyRing ← addDataProtection platform c
  let (callbackBearerToken, clientOptions) ← addRusAuthExample c
  let managementPort ← c.managementPort
  c.rusAuthValidation
  let callbackOptions ← (validateOptions callbackBearerToken).mapError .external
  platform.listen
  return ⟨keyRing, clientOptions, callbackOptions, managementPort⟩

end Start

/-- What the middleware asks of a request, and the rest of the pipeline. -/
structure Web (Request Response : Type) where
  path : Request → Str
  localPort : Request → Int
  startsWithSegments : Str → Str → Bool
  status404NotFound : Response
  next : Request → Response

section Gate
variable {Certificate RusAuthOptions Request Response : Type}

def healthGate (web : Web Request Response) (healthManagementPort : Int) (request : Request) :
    Response :=
  if web.startsWithSegments (web.path request) (lit "/health") &&
      web.localPort request != healthManagementPort then web.status404NotFound
  else web.next request

/-- Without a management port the gate is not put in front of the pipeline. -/
def Host.pipeline (host : Host Certificate RusAuthOptions) (web : Web Request Response) :
    Request → Response :=
  if 0 < host.managementPort then healthGate web host.managementPort else web.next

end Gate

section Start
variable {Certificate RusAuthOptions : Type} {platform : Platform Certificate}
  {c : Configuration RusAuthOptions} {host : Host Certificate RusAuthOptions}

/-- What becomes of the key ring: it is kept where the configuration says, or nowhere
    if that is blank. -/
def Persisted (platform : Platform Certificate) (c : Configuration RusAuthOptions) :
    Option Str → Prop
  | none => isNullOrWhiteSpace c.keyRingPath = true
  | some path =>
    c.keyRingPath = some path ∧ isBlank path = false ∧ platform.createDirectory path = .ok ()

/-- The certificate comes from the two paths of the configuration; without one both
    are blank. -/
def Protected (platform : Platform Certificate) (c : Configuration RusAuthOptions) :
    Option Certificate → Prop
  | none => isNullOrWhiteSpace c.certificatePath = true ∧
    isNullOrWhiteSpace c.certificateKeyPath = true
  | some certificate => ∃ pem key, c.certificatePath = some pem ∧ c.certificateKeyPath = some key ∧
    isBlank pem = false ∧ isBlank key = false ∧ platform.createFromPemFile pem key = .ok certificate

/-- What has to be the case for the host to start as it does. -/
structure Starts (platform : Platform Certificate) (c : Configuration RusAuthOptions)
    (host : Host Certificate RusAuthOptions) : Prop where
  keyRing : Persisted platform c host.keyRing.path
  certificate : Protected platform c host.keyRing.certificate
  production : isProduction c.environmentName = true →
    host.keyRing.path.isSome = true ∧ host.keyRing.certificate.isSome = true
  rusAuthSection : c.rusAuthSection = .ok ()
  exampleSection : ∃ configured, c.exampleSection = .ok configured ∧
    host.callbackOptions.callbackBearerToken = configured.getD (lit "example-callback-token")
  clientOptions : c.rusAuthOptions = .ok (some host.clientOptions)
  managementPort : c.managementPort = .ok host.managementPort
  validation : c.rusAuthValidation = .ok ()
  listens : platform.listen = .ok ()

theorem bind_ok_iff {A B : Type} {x : Except Exn A} {f : A → Except Exn B} {b : B} :
    x >>= f = .ok b ↔ ∃ a, x = .ok a ∧ f a = .ok b := by
  cases x with
  | error x => exact ⟨nofun, fun ⟨_, is, _⟩ => nomatch is⟩
  | ok a => exact ⟨fun ok => ⟨a, rfl, ok⟩, fun ⟨_, is, ok⟩ => by cases is; exact ok⟩

theorem filled_iff {value : Option Str} :
    isNullOrWhiteSpace value = false ↔ ∃ s, value = some s ∧ isBlank s = false := by
  cases value with
  | none => exact ⟨nofun, fun ⟨_, is, _⟩ => nomatch is⟩
  | some s => exact ⟨fun filled => ⟨s, rfl, filled⟩, fun ⟨_, is, filled⟩ => by cases is; exact filled⟩

theorem persist_keys_ok_iff {path : Option Str} :
    persistKeysToFileSystem platform c = .ok path ↔ Persisted platform c path := by
  unfold persistKeysToFileSystem
  cases blank : isNullOrWhiteSpace c.keyRingPath with
  | true =>
    rw [if_pos rfl]
    cases path with
    | none => exact ⟨fun _ => blank, fun _ => rfl⟩
    | some path =>
      refine ⟨nofun, fun ⟨is, filled, _⟩ => ?_⟩
      cases blank.symm.trans (filled_iff.mpr ⟨path, is, filled⟩)
  | false =>
    obtain ⟨s, is, filled⟩ := filled_iff.mp blank
    rw [if_neg (by simp), bind_ok_iff, is, Option.getD_some]
    cases path with
    | none =>
      constructor
      · rintro ⟨_, _, ⟨⟩⟩
      · intro unset
        cases unset.symm.trans blank
    | some path =>
      constructor
      · rintro ⟨_, created, kept⟩
        cases kept
        exact ⟨is, filled, created⟩
      · rintro ⟨is', _, created⟩
        cases is.symm.trans is'
        exact ⟨(), created, rfl⟩

theorem require_together_ok_iff : requireTogether c = .ok () ↔
    isNullOrWhiteSpace c.certificatePath = isNullOrWhiteSpace c.certificateKeyPath := by
  unfold requireTogether
  split
  · rename_i differ
    exact ⟨nofun, fun same => absurd same (by simpa using differ)⟩
  · rename_i same
    exact ⟨fun _ => by simpa using same, fun _ => rfl⟩

theorem protect_keys_ok_iff {certificate : Option Certificate} :
    requireTogether c = .ok () ∧ protectKeysWithCertificate platform c = .ok certificate ↔
      Protected platform c certificate := by
  rw [require_together_ok_iff]
  unfold protectKeysWithCertificate
  cases blank : isNullOrWhiteSpace c.certificatePath with
  | true =>
    rw [if_pos rfl]
    cases certificate with
    | none => exact ⟨fun ⟨same, _⟩ => ⟨blank, same.symm⟩, fun ⟨_, key⟩ => ⟨key.symm, rfl⟩⟩
    | some certificate =>
      constructor
      · rintro ⟨_, ⟨⟩⟩
      · rintro ⟨pem, _, is, _, filled, _⟩
        cases blank.symm.trans (filled_iff.mpr ⟨pem, is, filled⟩)
  | false =>
    obtain ⟨pem, isPem, pemFilled⟩ := filled_iff.mp blank
    rw [if_neg (by simp), isPem, Option.getD_some]
    cases certificate with
    | none =>
      constructor
      · rintro ⟨_, loaded⟩
        obtain ⟨_, _, kept⟩ := bind_ok_iff.mp loaded
        cases kept
      · rintro ⟨unset, _⟩
        cases unset.symm.trans blank
    | some certificate =>
      constructor
      · rintro ⟨same, loaded⟩
        obtain ⟨key, isKey, keyFilled⟩ := filled_iff.mp same.symm
        obtain ⟨read, is, kept⟩ := bind_ok_iff.mp loaded
        cases kept
        rw [isKey, Option.getD_some] at is
        exact ⟨pem, key, isPem, isKey, pemFilled, keyFilled, is⟩
      · rintro ⟨pem', key, isPem', isKey, _, keyFilled, loaded⟩
        cases isPem.symm.trans isPem'
        refine ⟨(filled_iff.mpr ⟨key, isKey, keyFilled⟩).symm, ?_⟩
        rw [isKey, Option.getD_some]
        exact bind_ok_iff.mpr ⟨certificate, loaded, rfl⟩

theorem require_in_production_ok_iff : requireInProduction c = .ok () ↔
    (isProduction c.environmentName = true →
      isNullOrWhiteSpace c.keyRingPath = false ∧ isNullOrWhiteSpace c.certificatePath = false) := by
  unfold requireInProduction
  rw [← Bool.or_eq_false_iff]
  split
  · rename_i missing
    rw [Bool.and_eq_true] at missing
    refine ⟨nofun, fun enough => ?_⟩
    cases missing.2.symm.trans (enough missing.1)
  · rename_i enough
    refine ⟨fun _ production => ?_, fun _ => rfl⟩
    rw [production, Bool.true_and, Bool.not_eq_true] at enough
    exact enough

theorem persisted_some_iff {path : Option Str} (persisted : Persisted platform c path) :
    path.isSome = true ↔ isNullOrWhiteSpace c.keyRingPath = false := by
  cases path with
  | none => exact ⟨nofun, fun filled => nomatch persisted.symm.trans filled⟩
  | some path => exact ⟨fun _ => filled_iff.mpr ⟨path, persisted.1, persisted.2.1⟩, fun _ => rfl⟩

theorem protected_some_iff {certificate : Option Certificate}
    (kept : Protected platform c certificate) :
    certificate.isSome = true ↔ isNullOrWhiteSpace c.certificatePath = false := by
  cases certificate with
  | none => exact ⟨nofun, fun filled => nomatch kept.1.symm.trans filled⟩
  | some certificate =>
    obtain ⟨pem, _, is, _, filled, _⟩ := kept
    exact ⟨fun _ => filled_iff.mpr ⟨pem, is, filled⟩, fun _ => rfl⟩

theorem add_data_protection_ok_iff {keyRing : KeyRing Certificate} :
    addDataProtection platform c = .ok keyRing ↔
      Persisted platform c keyRing.path ∧ Protected platform c keyRing.certificate ∧
        (isProduction c.environmentName = true →
          keyRing.path.isSome = true ∧ keyRing.certificate.isSome = true) := by
  constructor
  · intro added
    obtain ⟨path, kept, added⟩ := bind_ok_iff.mp added
    obtain ⟨_, together, added⟩ := bind_ok_iff.mp added
    obtain ⟨certificate, loaded, added⟩ := bind_ok_iff.mp added
    obtain ⟨_, enough, added⟩ := bind_ok_iff.mp added
    cases added
    have persisted := persist_keys_ok_iff.mp kept
    have guarded := protect_keys_ok_iff.mp ⟨together, loaded⟩
    refine ⟨persisted, guarded, fun production => ?_⟩
    rw [persisted_some_iff persisted, protected_some_iff guarded]
    exact require_in_production_ok_iff.mp enough production
  · rintro ⟨persisted, guarded, enough⟩
    obtain ⟨together, loaded⟩ := protect_keys_ok_iff.mpr guarded
    rw [persisted_some_iff persisted, protected_some_iff guarded] at enough
    exact bind_ok_iff.mpr ⟨_, persist_keys_ok_iff.mpr persisted, bind_ok_iff.mpr ⟨_, together,
      bind_ok_iff.mpr ⟨_, loaded, bind_ok_iff.mpr ⟨_, require_in_production_ok_iff.mpr enough, rfl⟩⟩⟩⟩

theorem get_required_ok_iff {sectionName : Str} {value : Except Exn (Option RusAuthOptions)}
    {options : RusAuthOptions} :
    getRequiredConfiguration sectionName value = .ok options ↔ value = .ok (some options) := by
  rcases value with x | _ | found
  · exact ⟨nofun, nofun⟩
  · exact ⟨nofun, nofun⟩
  · exact ⟨fun is => by cases is; rfl, fun is => by cases is; rfl⟩

theorem validate_ok_iff {configured : Option Str} {options : ExampleCallbackOptions} :
    (validateOptions configured).mapError Exn.external = .ok options ↔
      options.callbackBearerToken = configured.getD (lit "example-callback-token") := by
  obtain ⟨token, required⟩ := options
  unfold validateOptions
  dsimp only
  split
  · exact ⟨fun is => by cases is; rfl, fun is => by subst is; rfl⟩
  · rename_i blank
    refine ⟨nofun, fun is => ?_⟩
    subst is
    exact absurd required blank

/-- The host starts exactly if the conditions hold, and then it is the one they tell:
    in production persisted and encrypted keys, otherwise as configured. Behind it a
    request for the health endpoints gets through on the management port only, if there
    is one; with all others the gate has nothing to do. -/
theorem started_host_guarded :
    (main platform c = .ok host ↔ Starts platform c host) ∧
    ∀ {Request Response : Type} (web : Web Request Response) (request : Request),
      (0 < host.managementPort ∧ web.startsWithSegments (web.path request) (lit "/health") = true ∧
          web.localPort request ≠ host.managementPort →
        host.pipeline web request = web.status404NotFound) ∧
      (host.managementPort ≤ 0 ∨ web.startsWithSegments (web.path request) (lit "/health") = false ∨
          web.localPort request = host.managementPort →
        host.pipeline web request = web.next request) := by
  refine ⟨⟨fun started => ?_, fun starts => ?_⟩, fun web request => ⟨?_, ?_⟩⟩
  · obtain ⟨keyRing, added, started⟩ := bind_ok_iff.mp started
    obtain ⟨⟨configured, clientOptions⟩, sections, started⟩ := bind_ok_iff.mp started
    obtain ⟨managementPort, port, started⟩ := bind_ok_iff.mp started
    obtain ⟨_, validation, started⟩ := bind_ok_iff.mp started
    obtain ⟨callbackOptions, validated, started⟩ := bind_ok_iff.mp started
    obtain ⟨_, listens, started⟩ := bind_ok_iff.mp started
    obtain ⟨_, rusAuthSection, sections⟩ := bind_ok_iff.mp sections
    obtain ⟨_, exampleSection, sections⟩ := bind_ok_iff.mp sections
    obtain ⟨_, options, sections⟩ := bind_ok_iff.mp sections
    cases sections
    cases started
    obtain ⟨persisted, guarded, production⟩ := add_data_protection_ok_iff.mp added
    exact ⟨persisted, guarded, production, rusAuthSection,
      ⟨configured, exampleSection, validate_ok_iff.mp validated⟩, get_required_ok_iff.mp options,
      port, validation, listens⟩
  · obtain ⟨persisted, guarded, production, rusAuthSection, ⟨configured, exampleSection, token⟩,
      options, port, validation, listens⟩ := starts
    refine bind_ok_iff.mpr ⟨host.keyRing,
      add_data_protection_ok_iff.mpr ⟨persisted, guarded, production⟩, ?_⟩
    refine bind_ok_iff.mpr ⟨(configured, host.clientOptions), ?_, ?_⟩
    · exact bind_ok_iff.mpr ⟨(), rusAuthSection, bind_ok_iff.mpr ⟨_, exampleSection,
        bind_ok_iff.mpr ⟨_, get_required_ok_iff.mpr options, rfl⟩⟩⟩
    · exact bind_ok_iff.mpr ⟨_, port, bind_ok_iff.mpr ⟨_, validation, bind_ok_iff.mpr
        ⟨_, validate_ok_iff.mpr token, bind_ok_iff.mpr ⟨_, listens, rfl⟩⟩⟩⟩
  · rintro ⟨managed, health, elsewhere⟩
    rw [Host.pipeline, if_pos managed, healthGate, if_pos (by simp [health, elsewhere])]
  · intro free
    rw [Host.pipeline]
    split
    · rename_i managed
      refine if_neg fun stopped => ?_
      simp only [Bool.and_eq_true, bne_iff_ne] at stopped
      rcases free with unmanaged | other | here
      · omega
      · cases stopped.1.symm.trans other
      · exact stopped.2 here
    · rfl

end Start

/- Production with a management port; directory and certificate are there. -/
namespace ProductionStart

def platform : Platform Str where
  createDirectory _ := .ok ()
  createFromPemFile pem _ := .ok pem
  listen := .ok ()

def configuration : Configuration Unit where
  environmentName := lit "production"
  keyRingPath := some (lit "/keys")
  certificatePath := some (lit "/tls.crt")
  certificateKeyPath := some (lit "/tls.key")
  managementPort := .ok 8081
  rusAuthSection := .ok ()
  exampleSection := .ok (some (lit "callback-secret"))
  rusAuthOptions := .ok (some ())
  rusAuthValidation := .ok ()

def host : Host Str Unit where
  keyRing := ⟨some (lit "/keys"), some (lit "/tls.crt")⟩
  clientOptions := ()
  callbackOptions := ⟨lit "callback-secret", by decide⟩
  managementPort := 8081

end ProductionStart

example : main ProductionStart.platform ProductionStart.configuration =
    .ok ProductionStart.host := rfl

example : main ProductionStart.platform
    { ProductionStart.configuration with certificatePath := none, certificateKeyPath := none } =
    .error (.invalidOperation productionMessage) := rfl

end RusAuthExample
