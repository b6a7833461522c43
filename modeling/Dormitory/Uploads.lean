import Dormitory.Digits
import Dormitory.ViewUrls

/-!
# Uploads

How a slip or a photo gets into the object store: the API signs a URL for a fresh
key, whoever has the URL puts bytes there, and the API looks at the object before
it stores the key in a row. The store is a third party; of it, the services rely on
what a signed URL lets through and on what a HEAD answers.
-/

namespace Dormitory

def slipMaxSizeBytes : Nat := 10 * 1024 * 1024

def maxSignedUrlTtlSeconds : Nat := 3600

/-- A signed PUT URL, by what it is signed for. -/
structure UploadUrl where
  key : String
  contentType : String
  contentLength : Nat
  expiresAt : Instant
  deriving DecidableEq

namespace StorageService

def clampTtl (requested : Nat) : Nat :=
  if requested < 30 then 30
  else if maxSignedUrlTtlSeconds < requested then maxSignedUrlTtlSeconds
  else requested

def generateUploadUrl (defaultTtl : Nat) (now : Instant) (key contentType : String)
    (contentLength : Nat) : UploadUrl where
  key := key
  contentType := contentType
  contentLength := contentLength
  expiresAt := now + clampTtl defaultTtl * 1000

/-- No URL lives longer than an hour. -/
theorem clampTtl_hour (requested : Nat) (now : Int) :
    now + clampTtl requested * 1000 ≤ now + 3600 * 1000 := by
  have hour : clampTtl requested ≤ 3600 := by
    unfold clampTtl maxSignedUrlTtlSeconds
    split
    · omega
    split
    · omega
    · omega
  omega

end StorageService

/-! ## Object keys -/

/-- The folder of an owner's objects. -/
def folderOf (folder : String) (companyId ownerId : Id) : String :=
  s!"companies/{companyId}/{folder}/{ownerId}/"

/-- The key of a new object of the owner. -/
def keyIn (folder : String) (companyId ownerId uuid : Id) (ext : String) : String :=
  folderOf folder companyId ownerId ++ s!"{uuid}.{ext}"

theorem slash_digits (n : Nat) : '/' ∉ (toString n).toList := by
  intro mem
  rw [Nat.toString_eq_ofList_toDigits, String.toList_ofList] at mem
  exact absurd (Nat.isDigit_of_mem_toDigits (by decide) (by decide) mem) (by decide)

theorem toString_nat_inj {m n : Nat} (same : (toString m).toList = (toString n).toList) :
    m = n := by
  simp only [Nat.toString_eq_ofList_toDigits, String.toList_ofList] at same
  exact toDigits_inj (by decide) (by decide) same

theorem dot_digits (n : Nat) : '.' ∉ (toString n).toList := by
  intro mem
  rw [Nat.toString_eq_ofList_toDigits, String.toList_ofList] at mem
  exact absurd (Nat.isDigit_of_mem_toDigits (by decide) (by decide) mem) (by decide)

theorem folderOf_toList (folder : String) (c o : Id) :
    (folderOf folder c o).toList = "companies/".toList ++ ((toString c).toList ++
      '/' :: (folder.toList ++ '/' :: ((toString o).toList ++ ['/']))) := by
  simp only [folderOf, String.toList_append, List.append_assoc]
  rfl

section keys
variable {folder folder' ext ext' : String} {c c' o o' uuid uuid' : Id}

/-- The folder that a key begins with is its own. -/
theorem keyIn_folder (plain : '/' ∉ folder.toList) (plain' : '/' ∉ folder'.toList)
    (fits : (folderOf folder' c' o').toList <+: (keyIn folder c o uuid ext).toList) :
    folder = folder' ∧ c = c' ∧ o = o' := by
  obtain ⟨rest, same⟩ := fits
  simp only [keyIn, String.toList_append, folderOf_toList, List.append_assoc, List.cons_append,
    List.append_cancel_left_eq] at same
  obtain ⟨company, same⟩ := append_cons_inj (slash_digits c') (slash_digits c) same
  obtain ⟨name, same⟩ := append_cons_inj plain' plain same
  obtain ⟨owner, -⟩ := append_cons_inj (slash_digits o') (slash_digits o) same
  exact ⟨String.toList_inj.mp name.symm, toString_nat_inj company.symm,
    toString_nat_inj owner.symm⟩

/-- Keys with distinct ids are distinct. -/
theorem keyIn_uuid (plain : '/' ∉ folder.toList) (plain' : '/' ∉ folder'.toList)
    (same : keyIn folder c o uuid ext = keyIn folder' c' o' uuid' ext') : uuid = uuid' := by
  have fits : (folderOf folder' c' o').toList <+: (keyIn folder c o uuid ext).toList := by
    rw [same, keyIn, String.toList_append]
    exact List.prefix_append _ _
  obtain ⟨rfl, rfl, rfl⟩ := keyIn_folder plain plain' fits
  have names := congrArg String.toList same
  simp only [keyIn, String.toList_append, List.append_cancel_left_eq, List.append_assoc] at names
  exact toString_nat_inj (append_cons_inj (dot_digits uuid) (dot_digits uuid') names).1

end keys

/-! ## Upload URLs -/

structure SlipUploadUrlInput where
  mimeType : SlipMimeType
  sizeBytes : Nat
  positive : 1 ≤ sizeBytes
  capped : sizeBytes ≤ slipMaxSizeBytes

inductive MaintenancePhotoMimeType where
  | jpeg | png | webp
  deriving DecidableEq, Repr

def MaintenancePhotoMimeType.toString : MaintenancePhotoMimeType → String
  | jpeg => "image/jpeg"
  | png => "image/png"
  | webp => "image/webp"

def maintenancePhotoMaxSizeBytes : Nat := 10 * 1024 * 1024

structure MaintenancePhotoUploadUrlInput where
  mimeType : MaintenancePhotoMimeType
  sizeBytes : Nat
  positive : 1 ≤ sizeBytes
  capped : sizeBytes ≤ maintenancePhotoMaxSizeBytes

namespace Premises.SlipService
open Txn StorageService

def extensionForMimeType : SlipMimeType → String
  | .jpeg => "jpg"
  | .png => "png"
  | .webp => "webp"
  | .pdf => "pdf"

def buildSlipKey (companyId paymentId uuid : Id) (mimeType : SlipMimeType) : String :=
  keyIn "slips" companyId paymentId uuid (extensionForMimeType mimeType)

/-- The URL for a payment of the company. -/
def slipUrl (ttl : Nat) (now : Instant) (companyId paymentId uuid : Id)
    (input : SlipUploadUrlInput) : UploadUrl :=
  generateUploadUrl ttl now (buildSlipKey companyId paymentId uuid input.mimeType)
    input.mimeType.toString input.sizeBytes

def createUploadUrl (ctx : Ctx) (ttl : Nat) (now : Instant) (uuid paymentId : Id)
    (input : SlipUploadUrlInput) : Prog premises UploadUrl := do
  let payment ← prisma ctx (.paymentFindUnique paymentId)
  let (payment, slip) ← orThrow (.http .notFound "" s!"Payment {paymentId} not found") payment
  if payment.status ≠ .pending then
    Prog.throw (.http .conflict "PaymentNotPending"
      ("Cannot attach a slip to a " ++ payment.status.toString ++ " payment"))
  else if slip.isSome then
    Prog.throw (.http .conflict "SlipAlreadyExists"
      ("A slip is already attached to this payment — reject the payment and create a new one " ++
        "to re-upload"))
  else pure (slipUrl ttl now payment.companyId payment.id uuid input)

end Premises.SlipService

namespace Maintenance.MaintenanceService
open StorageService

def extensionForMimeType : MaintenancePhotoMimeType → String
  | .jpeg => "jpg"
  | .png => "png"
  | .webp => "webp"

def buildPhotoKey (companyId tenantId uuid : Id) (mimeType : MaintenancePhotoMimeType) : String :=
  keyIn "maintenance" companyId tenantId uuid (extensionForMimeType mimeType)

def createPhotoUploadUrl (ctx : Ctx) (ttl : Nat) (now : Instant) (uuid : Id)
    (input : MaintenancePhotoUploadUrlInput) (tenantId : Id) : UploadUrl :=
  generateUploadUrl ttl now (buildPhotoKey ctx.companyId tenantId uuid input.mimeType)
    input.mimeType.toString input.sizeBytes

end Maintenance.MaintenanceService

/-! ## The store -/

/-- The object store, in its states `β`: a PUT of bytes under a signed URL, if it is let
through, and a HEAD. -/
structure Bucket (β : Type) where
  putObject : β → Instant → UploadUrl → List UInt8 → Option β
  headObject : β → String → Option Premises.HeadObject

/-- What the services rely on, where `stored` is what is under a key: a PUT has the length
that its URL is signed for, before the URL expires, and stores under the key of the URL;
a HEAD tells the length of what is stored. -/
structure Bucket.Honours {β : Type} (B : Bucket β) (stored : β → String → Option (List UInt8)) :
    Prop where
  length : ∀ {b b' now url body}, B.putObject b now url body = some b' →
    body.length = url.contentLength
  live : ∀ {b b' now url body}, B.putObject b now url body = some b' → now ≤ url.expiresAt
  stores : ∀ {b b' now url body}, B.putObject b now url body = some b' →
    ∀ key, stored b' key = if key = url.key then some body else stored b key
  heads : ∀ b key, B.headObject b key = (stored b key).map fun body => ⟨some body.length⟩

namespace Uploads
open Txn Maintenance MaintenanceService
open Premises (premises)

/-- A call at the desk, without what the store answers it. -/
inductive DeskCall where
  | createForTenant (ctx : Ctx) (newId : Id) (input : CreateMaintenanceRequestInput)
    (tenantId : Id)
  | update (ctx : Ctx) (now : Instant) (id : Id) (input : UpdateMaintenanceRequestInput)
  | updateForTenant (ctx : Ctx) (id : Id) (input : TenantUpdateMaintenanceRequestInput)
    (tenantId : Id)
  | registerSlip (ctx : Ctx) (newId paymentId : Id) (input : Premises.UploadSlipInput)
  | elsewhere (change : Premises.Dorm → Premises.Dorm)

/-- The call with the store's answers. -/
def DeskCall.request (P : Premises.Pgcrypto) (head : Storage) : DeskCall → DeskRequest
  | createForTenant ctx newId input tenantId => .createForTenant ctx newId head input tenantId
  | update ctx now id input => .update ctx now id input
  | updateForTenant ctx id input tenantId => .updateForTenant ctx head id input tenantId
  | registerSlip ctx newId paymentId input =>
    .registerSlip P ctx (head input.r2ObjectKey) newId paymentId input
  | elsewhere change => .elsewhere change

/-- The desk, the store, the URLs that have been handed out and the HEADs that have been
answered. -/
structure World (β : Type) where
  desk : Desk
  bucket : β
  urls : List UploadUrl := []
  heads : List (String × Option Premises.HeadObject) := []

/-- `uuid` is what the API draws, `now` the clock of whoever acts. -/
inductive Action where
  | slipUrl (ctx : Ctx) (now : Instant) (uuid paymentId : Id) (input : SlipUploadUrlInput)
  | photoUrl (ctx : Ctx) (now : Instant) (uuid : Id) (input : MaintenancePhotoUploadUrlInput)
    (tenantId : Id)
  /-- Somebody who has the URL. -/
  | put (now : Instant) (url : UploadUrl) (body : List UInt8)
  /-- A HEAD of some call that is under way. -/
  | head (key : String)
  /-- The rest of a call, with the answers that it has had; others have failed. -/
  | call (answers : List (String × Option Premises.HeadObject)) (down : Failure) (call : DeskCall)

def Action.uuid? : Action → Option Id
  | slipUrl _ _ uuid _ _ | photoUrl _ _ uuid _ _ => some uuid
  | _ => none

/-- The URL that the action asks for. -/
def Action.minted (ttl : Nat) : Action → Option UploadUrl
  | slipUrl ctx now uuid paymentId input =>
    some (Premises.SlipService.slipUrl ttl now ctx.companyId paymentId uuid input)
  | photoUrl ctx now uuid input tenantId =>
    some (MaintenanceService.createPhotoUploadUrl ctx ttl now uuid input tenantId)
  | _ => none

/-- The answers as the call has them. -/
def storageOf (answers : List (String × Option Premises.HeadObject)) (down : Failure) : Storage :=
  fun key =>
    match answers.lookup key with
    | some found => .ok found
    | none => .error down

/-- The server, its encryption, the configured lifetime of a URL, and the store. -/
structure Site (β : Type) where
  server : Server
  pgcrypto : Premises.Pgcrypto
  ttl : Nat
  bucket : Bucket β

/-- A URL cannot be made up. -/
def World.step {β : Type} (site : Site β) (w : World β) : Action → World β
  | .slipUrl ctx now uuid paymentId input =>
    match (Prog.serve (Premises.engine site.server site.pgcrypto) (fun _ => true) w.desk.dorm
      (Premises.SlipService.createUploadUrl ctx site.ttl now uuid paymentId input)).answer with
    | .ok url => { w with urls := url :: w.urls }
    | .error _ => w
  | .photoUrl ctx now uuid input tenantId =>
    { w with
      urls :=
        MaintenanceService.createPhotoUploadUrl ctx site.ttl now uuid input tenantId :: w.urls }
  | .put now url body =>
    if url ∈ w.urls then
      match site.bucket.putObject w.bucket now url body with
      | some b => { w with bucket := b }
      | none => w
    else w
  | .head key => { w with heads := (key, site.bucket.headObject w.bucket key) :: w.heads }
  | .call answers down call =>
    if answers ⊆ w.heads then
      { w with
        desk := (call.request site.pgcrypto (storageOf answers down)).commit site.server w.desk }
    else w

def World.run {β : Type} (site : Site β) (w : World β) (actions : List Action) : World β :=
  actions.foldl (World.step site) w

/-! ## What the calls do -/

section calls
variable {S : Server} {P : Premises.Pgcrypto} {dorm : Premises.Dorm} {s : Desk} {ctx : Ctx}

/-- A URL that is handed out is for the payment that was asked for. -/
theorem createUploadUrl_answers (ttl : Nat) (now : Instant) (uuid paymentId : Id)
    (input : SlipUploadUrlInput) :
    (Premises.SlipService.createUploadUrl ctx ttl now uuid paymentId input).Answers
      (Premises.engine S P) dorm [] fun url _ =>
        url = Premises.SlipService.slipUrl ttl now ctx.companyId paymentId uuid input := by
  refine Prog.Answers.query (σ := premises)
    (s := (⟨ctx.companyId, .paymentFindUnique paymentId⟩ : Premises.Statement)) ?_
  intro ws found ran
  cases ran
  rw [List.foldl_nil]
  cases seen : dorm.db.payment? ctx.companyId paymentId with
  | none => exact Prog.Answers.fail (σ := premises) _
  | some payment =>
    obtain ⟨stored, mine⟩ := Option.filter_eq_some_iff.mp seen
    obtain rfl : payment.id = paymentId := Table.find?_key stored
    have same : payment.companyId = ctx.companyId := of_decide_eq_true mine
    rw [Option.map_some]
    change Prog.Answers _ _ _ (if _ then _ else if _ then _ else _) _
    split
    · exact Prog.Answers.fail (σ := premises) _
    split
    · exact Prog.Answers.fail (σ := premises) _
    · rw [same]
      exact .ret rfl

/-- The slip of the input is added, whose object the store has told of. -/
def AddsSeen (head : Except Failure (Option Premises.HeadObject))
    (input : Premises.UploadSlipInput) (dorm dorm' : Premises.Dorm) : Prop :=
  dorm'.slips = dorm.slips ∨ ∃ h l, head = .ok (some h) ∧
    (∀ length ∈ h.contentLength, length = input.sizeBytes) ∧ l.r2ObjectKey = input.r2ObjectKey ∧
    l.sizeBytes = input.sizeBytes ∧ dorm.slips.find? l.id = none ∧
    dorm'.slips = dorm.slips.put l

theorem register_adds (head : Except Failure (Option Premises.HeadObject)) (newId paymentId : Id)
    (input : Premises.UploadSlipInput) :
    (Premises.SlipService.register ctx head newId paymentId input).Leaves (Premises.engine S P)
      dorm [] (AddsSeen head input dorm) := by
  have same : AddsSeen head input dorm dorm := .inl rfl
  refine (Premises.payment_reads paymentId).before same fun found holds => ?_
  refine (Premises.orThrow_reads _ found holds).before same fun (payment, slip) _ => ?_
  dsimp only
  split
  · exact .fail _ same
  split
  · exact .fail _ same
  split
  · exact .fail _ same
  split
  · exact .fail _ same
  · exact .fail _ same
  rename_i h
  split
  · exact .fail _ same
  rename_i fits
  refine Premises.leaves_catch same (Premises.leaves_write same fun ws a ran => ?_)
  simp only [Premises.run, Premises.createSlip] at ran
  split at ran
  · cases ran
  split at ran
  · cases ran
  rename_i free
  split at ran
  · cases ran
  · cases ran
    refine .inr ⟨h, ⟨newId, payment.companyId, payment.id, input.r2ObjectKey, input.mimeType,
      input.sizeBytes, input.sha256⟩, rfl, fun length told => ?_, rfl, rfl, by simpa using free,
      rfl⟩
    by_contra other
    exact absurd fits (Option.ne_none_iff_isSome.mpr (by
      simp [Option.mem_def.mp told, other]))

/-- Only a registration adds a slip. -/
theorem DeskCall.commit_slips (head : Storage) (call : DeskCall) :
    ((call.request P head).commit S s).dorm.slips = s.dorm.slips ∨
      ∃ ctx newId paymentId input, call = .registerSlip ctx newId paymentId input ∧
        AddsSeen (head input.r2ObjectKey) input s.dorm ((call.request P head).commit S s).dorm := by
  have kept : ∀ {call s'}, Leaves s call s' → s'.dorm.slips = s.dorm.slips := by
    rintro call s' (rfl | ⟨r, -, rfl⟩)
    · rfl
    · rfl
  cases call with
  | createForTenant ctx newId input tenantId =>
    exact .inl (kept ((createForTenant_leaves newId head input tenantId).serve _))
  | update ctx now id input => exact .inl (kept ((update_leaves now id input).serve _))
  | updateForTenant ctx id input tenantId =>
    exact .inl (kept ((updateForTenant_leaves head id input tenantId).serve _))
  | registerSlip ctx newId paymentId input =>
    exact .inr ⟨ctx, newId, paymentId, input, rfl, (register_adds _ newId paymentId input).serve _⟩
  | elsewhere => exact .inl rfl

theorem checkPhotos_seen {p : String} {head : Storage} {keys : List String}
    (checked : checkPhotos p head keys = .ok ()) : ∀ key ∈ keys, ∃ h, head key = .ok (some h) := by
  induction keys with
  | nil => exact List.forall_mem_nil _
  | cons first rest ih =>
    rw [checkPhotos] at checked
    split at checked
    · split at checked
      · cases checked
      · cases checked
      · rename_i h told
        exact List.forall_mem_cons.mpr ⟨⟨h, told⟩, ih checked⟩
    · cases checked

/-- A photo that a call stores was there before, or the store has told of its object. -/
theorem DeskCall.stored_photos {head : Storage} {call : DeskCall} {r : MaintenanceRequest}
    (stores : Stores s (call.request P head) r) :
    ∀ photo ∈ r.photoR2Keys,
      (∃ t ∈ s.tickets.rows, photo ∈ t.photoR2Keys) ∨ ∃ h, head photo = .ok (some h) := by
  cases call with
  | createForTenant ctx newId input tenantId =>
    cases stores with
    | created fresh checked => exact fun photo mem => .inr (checkPhotos_seen checked photo mem)
  | update ctx now id input =>
    cases stores with
    | @updated _ _ _ _ t d found data =>
      intro photo mem
      exact .inl ⟨t, (ticket?_mem found).1, by simpa [(updateData_cases data).1] using mem⟩
  | updateForTenant ctx id input tenantId =>
    cases stores with
    | @updatedForTenant _ _ _ _ _ t d found own data =>
      have here := (ticket?_mem found).1
      obtain ⟨-, -, ⟨-, photos⟩ | ⟨-, -, -, checked, photos⟩⟩ := tenantData_cases data
      · intro photo mem
        exact .inl ⟨t, here, by simpa [photos] using mem⟩
      · intro photo mem
        simp only [TicketPatch.apply_photoR2Keys, photos, Option.getD_some] at mem
        obtain old | new := List.mem_append.mp mem
        · exact .inl ⟨t, here, old⟩
        · exact .inr (checkPhotos_seen checked photo new)
  | registerSlip => cases stores
  | elsewhere => cases stores

end calls

/-! ## Whole runs -/

section runs
variable {β : Type} {site : Site β} {stored : β → String → Option (List UInt8)} {w : World β}
  {past actions : List Action} {a a' : Action} {url url' : UploadUrl}

theorem slipPrefix_eq (companyId paymentId : Id) :
    slipPrefix companyId paymentId = folderOf "slips" companyId paymentId := by
  refine String.toList_inj.mp ?_
  simp only [folderOf_toList, slipPrefix, String.toList_append, List.append_assoc]
  rfl

theorem expectedPrefix_eq (companyId tenantId : Id) :
    expectedPrefix companyId tenantId = folderOf "maintenance" companyId tenantId := by
  refine String.toList_inj.mp ?_
  simp only [folderOf_toList, expectedPrefix, String.toList_append, List.append_assoc]
  rfl

/-- A key that is in some slip's folder was asked for, for that payment. -/
theorem Action.minted_slip {ttl : Nat} {companyId paymentId : Id} (asked : a.minted ttl = some url)
    (fits : startsWith url.key (slipPrefix companyId paymentId)) :
    ∃ now uuid input, a = .slipUrl ⟨companyId⟩ now uuid paymentId input ∧
      url = Premises.SlipService.slipUrl ttl now companyId paymentId uuid input := by
  rw [slipPrefix_eq] at fits
  have fits := of_decide_eq_true fits
  cases a with
  | slipUrl ctx now uuid p input =>
    obtain rfl := Option.some.inj asked
    obtain ⟨-, rfl, rfl⟩ := keyIn_folder (by decide) (by decide) fits
    exact ⟨now, uuid, input, rfl, rfl⟩
  | photoUrl ctx now uuid input tenantId =>
    obtain rfl := Option.some.inj asked
    exact absurd (keyIn_folder (by decide) (by decide) fits).1 (by decide)
  | put | head | call => cases asked

theorem Action.minted_photo {ttl : Nat} {companyId tenantId : Id} (asked : a.minted ttl = some url)
    (fits : startsWith url.key (expectedPrefix companyId tenantId)) :
    ∃ now uuid input, a = .photoUrl ⟨companyId⟩ now uuid input tenantId ∧
      url = MaintenanceService.createPhotoUploadUrl ⟨companyId⟩ ttl now uuid input tenantId := by
  rw [expectedPrefix_eq] at fits
  have fits := of_decide_eq_true fits
  cases a with
  | slipUrl ctx now uuid p input =>
    obtain rfl := Option.some.inj asked
    exact absurd (keyIn_folder (by decide) (by decide) fits).1 (by decide)
  | photoUrl ctx now uuid input tenant =>
    obtain rfl := Option.some.inj asked
    obtain ⟨-, company, rfl⟩ := keyIn_folder (by decide) (by decide) fits
    obtain ⟨c⟩ := ctx
    obtain rfl : c = companyId := company
    exact ⟨now, uuid, input, rfl, rfl⟩
  | put | head | call => cases asked

/-- A key tells what was drawn for it. -/
theorem Action.minted_uuid {ttl : Nat} (asked : a.minted ttl = some url)
    (asked' : a'.minted ttl = some url') (same : url.key = url'.key) :
    ∃ uuid, a.uuid? = some uuid ∧ a'.uuid? = some uuid := by
  have plain : '/' ∉ "slips".toList ∧ '/' ∉ "maintenance".toList := by decide
  obtain ⟨slips, maintenance⟩ := plain
  cases a with
  | slipUrl ctx now uuid paymentId input =>
    cases a' with
    | slipUrl ctx' now' uuid' paymentId' input' =>
      cases asked; cases asked'
      exact ⟨uuid, rfl, congrArg some (keyIn_uuid slips slips same).symm⟩
    | photoUrl ctx' now' uuid' input' tenantId' =>
      cases asked; cases asked'
      exact ⟨uuid, rfl, congrArg some (keyIn_uuid slips maintenance same).symm⟩
    | put | head | call => cases asked'
  | photoUrl ctx now uuid input tenantId =>
    cases a' with
    | slipUrl ctx' now' uuid' paymentId' input' =>
      cases asked; cases asked'
      exact ⟨uuid, rfl, congrArg some (keyIn_uuid maintenance slips same).symm⟩
    | photoUrl ctx' now' uuid' input' tenantId' =>
      cases asked; cases asked'
      exact ⟨uuid, rfl, congrArg some (keyIn_uuid maintenance maintenance same).symm⟩
    | put | head | call => cases asked'
  | put | head | call => cases asked

theorem drawn_once {uuid : Id} (fresh : (past.filterMap Action.uuid?).Nodup) (mem : a ∈ past)
    (mem' : a' ∈ past) (drawn : a.uuid? = some uuid) (drawn' : a'.uuid? = some uuid) : a = a' := by
  have apart := List.pairwise_filterMap.mp fresh
  by_contra other
  have symm : Std.Symm fun x y : Action =>
      ∀ u, x.uuid? = some u → ∀ v, y.uuid? = some v → u ≠ v :=
    ⟨fun x y h u hu v hv same => h v hv u hu same.symm⟩
  exact List.Pairwise.forall apart mem mem' other uuid drawn uuid drawn' rfl

/-- What holds after the actions `past`. -/
structure Sound (site : Site β) (stored : β → String → Option (List UInt8))
    (past : List Action) (w : World β) : Prop where
  urls : ∀ url ∈ w.urls, ∃ a ∈ past, a.minted site.ttl = some url
  objects : ∀ key body, stored w.bucket key = some body →
    ∃ url ∈ w.urls, url.key = key ∧ body.length = url.contentLength
  heads : ∀ key h, (key, some h) ∈ w.heads →
    ∃ body, stored w.bucket key = some body ∧ h.contentLength = some body.length
  confined : Confined w.desk
  slips : ∀ l ∈ w.desk.dorm.slips.rows,
    ∃ body, stored w.bucket l.r2ObjectKey = some body ∧ body.length = l.sizeBytes
  photos : ∀ t ∈ w.desk.tickets.rows, ∀ photo ∈ t.photoR2Keys,
    ∃ body, stored w.bucket photo = some body

namespace Sound

/-- One key, one URL. -/
theorem apart (sound : Sound site stored past w) (fresh : (past.filterMap Action.uuid?).Nodup)
    (mem : url ∈ w.urls) (mem' : url' ∈ w.urls) (same : url.key = url'.key) : url = url' := by
  obtain ⟨a, ha, asked⟩ := sound.urls url mem
  obtain ⟨a', ha', asked'⟩ := sound.urls url' mem'
  obtain ⟨uuid, drawn, drawn'⟩ := Action.minted_uuid asked asked' same
  obtain rfl : a = a' := drawn_once fresh ha ha' drawn drawn'
  exact Option.some.inj (asked.symm.trans asked')

/-- An object keeps its length. -/
theorem put (sound : Sound site stored past w) (fresh : (past.filterMap Action.uuid?).Nodup)
    (honours : site.bucket.Honours stored) (mem : url ∈ w.urls) {now : Instant}
    {new : List UInt8} {b : β} (accepted : site.bucket.putObject w.bucket now url new = some b)
    {key : String} {body : List UInt8} (there : stored w.bucket key = some body) :
    ∃ body', stored b key = some body' ∧ body'.length = body.length := by
  by_cases same : key = url.key
  · obtain ⟨url', mem', at', length⟩ := sound.objects key body there
    obtain rfl : url' = url := sound.apart fresh mem' mem (at'.trans same)
    refine ⟨new, ?_, (honours.length accepted).trans length.symm⟩
    rw [honours.stores accepted, if_pos same]
  · refine ⟨body, ?_, rfl⟩
    rw [honours.stores accepted, if_neg same, there]

theorem later (sound : Sound site stored past w) (rest : List Action) :
    Sound site stored (past ++ rest) w where
  urls := by
    intro url mem
    obtain ⟨a, ha, asked⟩ := sound.urls url mem
    exact ⟨a, List.mem_append_left _ ha, asked⟩
  objects := sound.objects
  heads := sound.heads
  confined := sound.confined
  slips := sound.slips
  photos := sound.photos

/-- A URL is handed out. -/
theorem hand (sound : Sound site stored past w) (asked : a.minted site.ttl = some url) :
    Sound site stored (past ++ [a]) { w with urls := url :: w.urls } where
  urls := by
    intro url' mem
    rcases List.mem_cons.mp mem with rfl | old
    · exact ⟨a, List.mem_append_right _ (List.mem_singleton.mpr rfl), asked⟩
    · exact (sound.later [a]).urls url' old
  objects := by
    intro key body there
    obtain ⟨url', mem, same⟩ := sound.objects key body there
    exact ⟨url', List.mem_cons_of_mem _ mem, same⟩
  heads := sound.heads
  confined := sound.confined
  slips := sound.slips
  photos := sound.photos

/-- Bytes are put. -/
theorem upload (sound : Sound site stored past w) (fresh : (past.filterMap Action.uuid?).Nodup)
    (honours : site.bucket.Honours stored) (mem : url ∈ w.urls) {now : Instant}
    {new : List UInt8} {b : β} (accepted : site.bucket.putObject w.bucket now url new = some b) :
    Sound site stored past { w with bucket := b } where
  urls := sound.urls
  objects := by
    intro key body there
    rw [honours.stores accepted] at there
    split at there
    · rename_i same
      cases there
      exact ⟨url, mem, same.symm, honours.length accepted⟩
    · exact sound.objects key body there
  heads := by
    intro key h told
    obtain ⟨body, there, length⟩ := sound.heads key h told
    obtain ⟨body', there', same⟩ := sound.put fresh honours mem accepted there
    exact ⟨body', there', by rw [length, same]⟩
  confined := sound.confined
  slips := by
    intro l hl
    obtain ⟨body, there, length⟩ := sound.slips l hl
    obtain ⟨body', there', same⟩ := sound.put fresh honours mem accepted there
    exact ⟨body', there', same.trans length⟩
  photos := by
    intro t ht photo listed
    obtain ⟨body, there⟩ := sound.photos t ht photo listed
    obtain ⟨body', there', -⟩ := sound.put fresh honours mem accepted there
    exact ⟨body', there'⟩

/-- The store answers a HEAD. -/
theorem look (sound : Sound site stored past w) (honours : site.bucket.Honours stored)
    (key : String) :
    Sound site stored past
      { w with heads := (key, site.bucket.headObject w.bucket key) :: w.heads } where
  urls := sound.urls
  objects := sound.objects
  heads := by
    intro key' h told
    rcases List.mem_cons.mp told with here | old
    · obtain ⟨rfl, answered⟩ := Prod.mk.inj here
      rw [honours.heads] at answered
      obtain ⟨body, there, rfl⟩ := Option.map_eq_some_iff.mp answered.symm
      exact ⟨body, there, rfl⟩
    · exact sound.heads key' h old
  confined := sound.confined
  slips := sound.slips
  photos := sound.photos

theorem told {answers : List (String × Option Premises.HeadObject)} {down : Failure}
    (sound : Sound site stored past w) (had : answers ⊆ w.heads) {key : String}
    {h : Premises.HeadObject} (answered : storageOf answers down key = .ok (some h)) :
    ∃ body, stored w.bucket key = some body ∧ h.contentLength = some body.length := by
  unfold storageOf at answered
  split at answered
  · rename_i found listed
    cases answered
    obtain ⟨front, rest, rfl, -⟩ := List.lookup_eq_some_iff.mp listed
    exact sound.heads key h (had (List.mem_append_right _ List.mem_cons_self))
  · cases answered

/-- A call ends. -/
theorem call (sound : Sound site stored past w)
    {answers : List (String × Option Premises.HeadObject)} (down : Failure)
    (had : answers ⊆ w.heads) (call : DeskCall) :
    Sound site stored past
      { w with
        desk := (call.request site.pgcrypto (storageOf answers down)).commit site.server
          w.desk } where
  urls := sound.urls
  objects := sound.objects
  heads := sound.heads
  confined := DeskRequest.commit_confined _ sound.confined
  slips := by
    intro l' hl'
    have adds := DeskCall.commit_slips (S := site.server) (P := site.pgcrypto) (s := w.desk)
      (storageOf answers down) call
    rcases adds with same | ⟨ctx, newId, paymentId, input, rfl, adds⟩
    · rw [same] at hl'
      exact sound.slips l' hl'
    rcases adds with same | ⟨h, l, answered, fits, key, size, -, same⟩
    · rw [same] at hl'
      exact sound.slips l' hl'
    · rw [same] at hl'
      rcases Table.mem_put.mp hl' with rfl | ⟨old, -⟩
      · obtain ⟨body, there, length⟩ := sound.told had answered
        exact ⟨body, key ▸ there, (fits _ length).trans size.symm⟩
      · exact sound.slips l' old
  photos := by
    refine DeskRequest.commit_keeps _ sound.photos fun r stores photo listed => ?_
    rcases DeskCall.stored_photos stores photo listed with ⟨t, ht, old⟩ | ⟨h, answered⟩
    · exact sound.photos t ht photo old
    · obtain ⟨body, there, -⟩ := sound.told had answered
      exact ⟨body, there⟩

theorem step (sound : Sound site stored past w) (honours : site.bucket.Honours stored)
    (fresh : (past.filterMap Action.uuid?).Nodup) (a : Action) :
    Sound site stored (past ++ [a]) (w.step site a) := by
  cases a with
  | slipUrl ctx now uuid paymentId input =>
    simp only [World.step]
    split
    · rename_i url answered
      refine sound.hand (congrArg some ?_)
      exact ((createUploadUrl_answers site.ttl now uuid paymentId input).serve answered).symm
    · exact sound.later _
  | photoUrl ctx now uuid input tenantId => exact sound.hand rfl
  | put now url body =>
    simp only [World.step]
    split
    · rename_i mem
      split
      · rename_i b accepted
        exact (sound.upload fresh honours mem accepted).later _
      · exact sound.later _
    · exact sound.later _
  | head key => exact (sound.look honours key).later _
  | call answers down call =>
    simp only [World.step]
    split
    · rename_i had
      exact (sound.call down had call).later _
    · exact sound.later _

theorem run (sound : Sound site stored past w) (honours : site.bucket.Honours stored)
    (fresh : ((past ++ actions).filterMap Action.uuid?).Nodup) :
    Sound site stored (past ++ actions) (w.run site actions) := by
  induction actions generalizing past w with
  | nil =>
    rw [List.append_nil]
    exact sound
  | cons a rest ih =>
    have drawn : (past.filterMap Action.uuid?).Nodup :=
      fresh.sublist ((List.sublist_append_left _ _).filterMap _)
    have next := sound.step honours drawn a
    rw [List.append_cons] at fresh ⊢
    exact ih next fresh

end Sound
/-! ### What has been uploaded -/

/-- The slip's object was put there under a URL that was asked for by the company for the
payment, and has the size that the slip says. -/
def SlipKept (stored : β → String → Option (List UInt8)) (actions : List Action) (w : World β)
    (l : Slip) : Prop :=
  ∃ now uuid input body, .slipUrl ⟨l.companyId⟩ now uuid l.paymentId input ∈ actions ∧
    l.r2ObjectKey =
      Premises.SlipService.buildSlipKey l.companyId l.paymentId uuid input.mimeType ∧
    stored w.bucket l.r2ObjectKey = some body ∧ body.length = l.sizeBytes ∧
    l.sizeBytes = input.sizeBytes

/-- The photo was put there under a URL that was asked for by the ticket's tenant. -/
def PhotoKept (stored : β → String → Option (List UInt8)) (actions : List Action) (w : World β)
    (t : MaintenanceRequest) (photo : String) : Prop :=
  ∃ now uuid input body, .photoUrl ⟨t.companyId⟩ now uuid input t.tenantId ∈ actions ∧
    photo = MaintenanceService.buildPhotoKey t.companyId t.tenantId uuid input.mimeType ∧
    stored w.bucket photo = some body ∧ body.length = input.sizeBytes

namespace Sound

theorem slip_kept (sound : Sound site stored past w) {l : Slip}
    (mem : l ∈ w.desk.dorm.slips.rows) : SlipKept stored past w l := by
  obtain ⟨body, there, size⟩ := sound.slips l mem
  obtain ⟨url, handed, key, length⟩ := sound.objects _ body there
  obtain ⟨a, asked, minted⟩ := sound.urls url handed
  have fits : startsWith url.key (slipPrefix l.companyId l.paymentId) :=
    key ▸ sound.confined.slips l mem
  obtain ⟨now, uuid, input, rfl, rfl⟩ := Action.minted_slip minted fits
  exact ⟨now, uuid, input, body, asked, key.symm, there, size, size.symm.trans length⟩

theorem photo_kept (sound : Sound site stored past w) {t : MaintenanceRequest} {photo : String}
    (mem : t ∈ w.desk.tickets.rows) (listed : photo ∈ t.photoR2Keys) :
    PhotoKept stored past w t photo := by
  obtain ⟨body, there⟩ := sound.photos t mem photo listed
  obtain ⟨url, handed, key, length⟩ := sound.objects _ body there
  obtain ⟨a, asked, minted⟩ := sound.urls url handed
  have fits : startsWith url.key (expectedPrefix t.companyId t.tenantId) :=
    key ▸ sound.confined.photos t mem photo listed
  obtain ⟨now, uuid, input, rfl, rfl⟩ := Action.minted_photo minted fits
  exact ⟨now, uuid, input, body, asked, key.symm, there, length⟩

theorem small (sound : Sound site stored past w) {key : String} {body : List UInt8}
    (there : stored w.bucket key = some body) : body.length ≤ slipMaxSizeBytes := by
  obtain ⟨url, handed, -, length⟩ := sound.objects key body there
  obtain ⟨a, -, minted⟩ := sound.urls url handed
  rw [length]
  cases a with
  | slipUrl ctx now uuid paymentId input =>
    cases minted
    exact input.capped
  | photoUrl ctx now uuid input tenantId =>
    cases minted
    exact input.capped
  | put | head | call => cases minted

/-- Once its URL has expired, an object stays as it is, and so does every slip. -/
theorem step_final (sound : Sound site stored past w) (honours : site.bucket.Honours stored)
    (fresh : (past.filterMap Action.uuid?).Nodup) (handed : url ∈ w.urls)
    (late : ∀ now url' body, a = .put now url' body → url.expiresAt < now) :
    url ∈ (w.step site a).urls ∧
      stored (w.step site a).bucket url.key = stored w.bucket url.key ∧
      ∀ l ∈ w.desk.dorm.slips.rows, l ∈ (w.step site a).desk.dorm.slips.rows := by
  cases a with
  | slipUrl ctx now uuid paymentId input =>
    simp only [World.step]
    split
    · exact ⟨List.mem_cons_of_mem _ handed, rfl, fun _ mem => mem⟩
    · exact ⟨handed, rfl, fun _ mem => mem⟩
  | photoUrl ctx now uuid input tenantId =>
    exact ⟨List.mem_cons_of_mem _ handed, rfl, fun _ mem => mem⟩
  | put now url' body =>
    simp only [World.step]
    split
    · rename_i mem
      split
      · rename_i b accepted
        refine ⟨handed, ?_, fun _ mem => mem⟩
        rw [honours.stores accepted, if_neg]
        intro same
        obtain rfl : url = url' := sound.apart fresh handed mem same
        exact absurd (honours.live accepted) (Int.not_le.mpr (late now url body rfl))
      · exact ⟨handed, rfl, fun _ mem => mem⟩
    · exact ⟨handed, rfl, fun _ mem => mem⟩
  | head key => exact ⟨handed, rfl, fun _ mem => mem⟩
  | call answers down call =>
    simp only [World.step]
    split
    · refine ⟨handed, rfl, fun l mem => ?_⟩
      have adds := DeskCall.commit_slips (S := site.server) (P := site.pgcrypto) (s := w.desk)
        (storageOf answers down) call
      rcases adds with same | ⟨ctx, newId, paymentId, input, rfl, adds⟩
      · rwa [same]
      rcases adds with same | ⟨h, new, -, -, -, -, free, same⟩
      · rwa [same]
      · rw [same]
        refine Table.mem_put.mpr (.inr ⟨mem, fun taken => ?_⟩)
        have found := Table.find?_of_mem mem
        rw [taken] at found
        cases free.symm.trans found
    · exact ⟨handed, rfl, fun _ mem => mem⟩

theorem run_final (sound : Sound site stored past w) (honours : site.bucket.Honours stored)
    (fresh : ((past ++ actions).filterMap Action.uuid?).Nodup) (handed : url ∈ w.urls)
    (late : ∀ now url' body, .put now url' body ∈ actions → url.expiresAt < now) :
    stored (w.run site actions).bucket url.key = stored w.bucket url.key ∧
      ∀ l ∈ w.desk.dorm.slips.rows, l ∈ (w.run site actions).desk.dorm.slips.rows := by
  induction actions generalizing past w with
  | nil => exact ⟨rfl, fun _ mem => mem⟩
  | cons a rest ih =>
    have drawn : (past.filterMap Action.uuid?).Nodup :=
      fresh.sublist ((List.sublist_append_left _ _).filterMap _)
    obtain ⟨handed', same, kept⟩ := sound.step_final honours drawn handed
      fun now url' body first => late now url' body (first ▸ List.mem_cons_self)
    rw [List.append_cons] at fresh
    obtain ⟨same', kept'⟩ := ih (sound.step honours drawn a) fresh handed'
      fun now url' body later => late now url' body (List.mem_cons_of_mem _ later)
    exact ⟨same'.trans same, fun l mem => kept' l (kept l mem)⟩

end Sound

/-- No tickets, no slips and an empty store. -/
def World.start (dorm : Premises.Dorm) (b : β) : World β where
  desk := { dorm := { dorm with slips := default } }
  bucket := b

theorem Sound.start {b : β} (empty : ∀ key, stored b key = none) (dorm : Premises.Dorm) :
    Sound site stored [] (World.start dorm b) where
  urls := fun _ mem => absurd mem List.not_mem_nil
  objects := fun key _ there => nomatch (empty key).symm.trans there
  heads := fun _ _ mem => absurd mem List.not_mem_nil
  confined := ⟨fun _ mem => absurd mem List.not_mem_nil, fun _ mem => absurd mem List.not_mem_nil⟩
  slips := fun _ mem => absurd mem List.not_mem_nil
  photos := fun _ mem => absurd mem List.not_mem_nil

namespace Demo

/-- A store that keeps to it. -/
def bucket : Bucket (String → Option (List UInt8)) where
  putObject b now url body :=
    if body.length = url.contentLength ∧ now ≤ url.expiresAt then
      some fun key => if key = url.key then some body else b key
    else none
  headObject b key := (b key).map fun body => ⟨some body.length⟩

theorem bucket_honours : bucket.Honours id where
  length := by
    intro b b' now url body accepted
    simp only [bucket, Option.ite_none_right_eq_some] at accepted
    exact accepted.1.1
  live := by
    intro b b' now url body accepted
    simp only [bucket, Option.ite_none_right_eq_some] at accepted
    exact accepted.1.2
  stores := by
    intro b b' now url body accepted key
    simp only [bucket, Option.ite_none_right_eq_some] at accepted
    exact (congrFun (Option.some.inj accepted.2) key).symm
  heads := fun _ _ => rfl

def uploads : Site (String → Option (List UInt8)) where
  server := Dormitory.Demo.server
  pgcrypto := ⟨id, some⟩
  ttl := 300
  bucket := bucket

/-- One pending payment. -/
def unpaid : World (String → Option (List UInt8)) :=
  World.start
    { estate :=
        { books :=
            Dormitory.Demo.db [Dormitory.Demo.invoice 1 11 (Dormitory.Demo.baht 100) .issued]
              [Dormitory.Demo.payment 5 1 11 (Dormitory.Demo.baht 100) "k"] } }
    fun _ => none

def twoBytes : SlipUploadUrlInput := ⟨.png, 2, by decide, by decide⟩

def slipOf5 : UploadUrl := Premises.SlipService.slipUrl 300 0 1 5 77 twoBytes

/-- The tenant asks for a URL, uploads and registers the slip. -/
def submission : List Action :=
  [.slipUrl ⟨1⟩ 0 77 5 twoBytes, .put 10 slipOf5 [1, 2], .head slipOf5.key,
    .call [(slipOf5.key, some ⟨some 2⟩)] .missing
      (.registerSlip ⟨1⟩ 600 5 ⟨slipOf5.key, .png, 2, "ab"⟩)]

def slip : Slip := ⟨600, 1, 5, slipOf5.key, .png, 2, "ab"⟩

theorem slip_registered : slip ∈ (unpaid.run uploads submission).desk.dorm.slips.rows := by
  decide +kernel

end Demo

/-- **Every slip and every photo is there.** Whatever the API, the people who have URLs and
the store do, in any order: what a slip or a ticket refers to was uploaded under a URL that
was asked for, for that payment or by that tenant, and has the size of the slip; and nothing
larger than ten mebibytes is ever stored. -/
theorem uploads_accounted (honours : site.bucket.Honours stored) {b : β}
    (empty : ∀ key, stored b key = none) (dorm : Premises.Dorm) (actions : List Action)
    (fresh : (actions.filterMap Action.uuid?).Nodup) :
    (∀ l ∈ ((World.start dorm b).run site actions).desk.dorm.slips.rows,
      SlipKept stored actions ((World.start dorm b).run site actions) l) ∧
    (∀ t ∈ ((World.start dorm b).run site actions).desk.tickets.rows, ∀ photo ∈ t.photoR2Keys,
      PhotoKept stored actions ((World.start dorm b).run site actions) t photo) ∧
    ∀ key body, stored ((World.start dorm b).run site actions).bucket key = some body →
      body.length ≤ slipMaxSizeBytes := by
  have sound : Sound site stored actions ((World.start dorm b).run site actions) :=
    (Sound.start empty dorm).run honours fresh
  refine ⟨fun l mem => sound.slip_kept mem, fun t mem photo listed => sound.photo_kept mem listed,
    fun key body there => sound.small there⟩

theorem uploads_accounted_slip :
    SlipKept id Demo.submission (Demo.unpaid.run Demo.uploads Demo.submission) Demo.slip :=
  (uploads_accounted Demo.bucket_honours (fun _ => rfl) _ Demo.submission (by decide)).1 Demo.slip
    Demo.slip_registered

/-- **A slip cannot be exchanged later.** An hour after the last URL for its payment was
asked for, a registered slip and the bytes of its object stay as they are. -/
theorem slip_object_final (honours : site.bucket.Honours stored) {b : β}
    (empty : ∀ key, stored b key = none) (dorm : Premises.Dorm) (before after : List Action)
    (fresh : ((before ++ after).filterMap Action.uuid?).Nodup) {l : Slip}
    (registered : l ∈ ((World.start dorm b).run site before).desk.dorm.slips.rows)
    (late : ∀ ctx now uuid input, .slipUrl ctx now uuid l.paymentId input ∈ before →
      ∀ now' url body, .put now' url body ∈ after → now + 3600 * 1000 < now') :
    l ∈ ((World.start dorm b).run site (before ++ after)).desk.dorm.slips.rows ∧
      stored ((World.start dorm b).run site (before ++ after)).bucket l.r2ObjectKey =
        stored ((World.start dorm b).run site before).bucket l.r2ObjectKey := by
  have drawn : (before.filterMap Action.uuid?).Nodup :=
    fresh.sublist ((List.sublist_append_left _ _).filterMap _)
  have sound : Sound site stored before ((World.start dorm b).run site before) :=
    (Sound.start empty dorm).run honours drawn
  have whole : (World.start dorm b).run site (before ++ after) =
      ((World.start dorm b).run site before).run site after := List.foldl_append
  obtain ⟨body, there, size⟩ := sound.slips l registered
  obtain ⟨url, handed, key, -⟩ := sound.objects _ body there
  obtain ⟨a, asked, minted⟩ := sound.urls url handed
  have fits : startsWith url.key (slipPrefix l.companyId l.paymentId) :=
    key ▸ sound.confined.slips l registered
  obtain ⟨now, uuid, input, rfl, same⟩ := Action.minted_slip minted fits
  have expired : ∀ now' url' body, .put now' url' body ∈ after → url.expiresAt < now' := by
    intro now' url' body mem
    rw [same]
    exact Int.lt_of_le_of_lt (StorageService.clampTtl_hour site.ttl now)
      (late _ _ _ _ asked now' url' body mem)
  obtain ⟨same', kept⟩ := sound.run_final honours fresh handed expired
  rw [whole, ← key]
  exact ⟨kept l registered, same'⟩

/-- Other bytes come too late. -/
theorem slip_object_final_late :
    (Demo.unpaid.run Demo.uploads
      (Demo.submission ++ [.put 4000000 Demo.slipOf5 [9, 9]])).bucket Demo.slip.r2ObjectKey =
        (Demo.unpaid.run Demo.uploads Demo.submission).bucket Demo.slip.r2ObjectKey := by
  refine (slip_object_final Demo.bucket_honours (fun _ => rfl) _ Demo.submission
    [.put 4000000 Demo.slipOf5 [9, 9]] (by decide) Demo.slip_registered ?_).2
  intro ctx now uuid input asked now' url body put
  simp only [Demo.submission, List.mem_cons, List.not_mem_nil, reduceCtorEq, or_false,
    Action.slipUrl.injEq, Action.put.injEq] at asked put
  obtain ⟨rfl, -⟩ := put
  obtain ⟨-, rfl, -⟩ := asked
  decide

end runs

end Uploads
end Dormitory
