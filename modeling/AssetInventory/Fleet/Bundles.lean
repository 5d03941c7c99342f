import AssetInventory.Fleet.Identity
import AssetInventory.Lib.CanonicalJson

/-!
# Bundles from isolated machines

A machine without a network is brought in as a bundle: its inventory, encrypted and signed, and a manifest
that is neither.  The form with the upload may name an organisation.  The route adds fields of the manifest
and of the form to the inventory, and then checks the signature of what it has by then.

* `decryptOfflineBundle` is a parameter, and so is the check of a signature on bytes; `verifySignature` is
  the check of a signature on an object.
* `mergedPayload`: the inventory with what is added; `importUpload`: the route.
* `JudgedBySignature`: what is expected of the verdict; `MergeKeeps`: the condition on what is added.
* `judgedBySignature_iff`: the verdict is that on the inventory if and only if nothing is added.
-/

namespace AssetInventory.Fleet

open PyJson PyTime Orm RowStore ReadCommitted Server

/-- What a bundle holds: an inventory, a signature with its key, and a manifest. -/
structure Bundle where
  payload : List (String × Json)
  signatureB64 : String
  publicKeyPem : String
  manifest : List (String × Json)

def canonicalJson (R : Reprs) (payload : List (String × Json)) : List Char := canonical R (.obj payload)

/-- `_verify_signature`, for the check of a signature under a key on some text. -/
def verifySignature (R : Reprs) (verify : String → String → List Char → Bool)
    (payload : List (String × Json)) (signatureB64 publicKeyPem : String) : Bool :=
  verify publicKeyPem signatureB64 (canonicalJson R payload)

/-- The fields that a manifest adds. -/
def manifestFields : List String := ["machine_uuid", "hostname", "fingerprint", "org_id", "exported_at"]

/-- The fields that the inventory does not have are taken from the manifest. -/
def mergeManifest (manifest : List (String × Json)) :
    List String → List (String × Json) → List (String × Json)
  | [], payload => payload
  | field :: fields, payload =>
    match lookup field payload, lookup field manifest with
    | none, some value => mergeManifest manifest fields (setKey field value payload)
    | _, _ => mergeManifest manifest fields payload

/-- The organisation of the form replaces that of the inventory. -/
def mergeForm (orgId : Option String) (payload : List (String × Json)) : List (String × Json) :=
  match orText orgId none with
  | some id => setKey "org_id" (.str id) payload
  | none => payload

/-- What the route makes of a bundle. -/
def mergedPayload (bundle : Bundle) (orgId : Option String) : List (String × Json) :=
  mergeForm orgId (mergeManifest bundle.manifest manifestFields bundle.payload)

/-- The fields of an upload. -/
structure Upload (Zip : Type) where
  file : Option Zip
  orgId : Option String

/-- The text of the refusal. -/
def signatureRefusal : String := "Chữ ký không hợp lệ — file có thể đã bị sửa đổi; không import"

section Routes

variable (I : Identification) (J : Importing)

/-- `import_offline`, from the payload on. -/
def importBody (admin : User) (body : OfflineImportRequest) :
    Handler (Except HttpError OfflineImportResponse) := do
  if !J.verifySignature body.payload body.signatureB64 body.publicKeyPem then
    httpError 400 signatureRefusal
  else
    let machineUuid := payloadMachineUuid J body.payload
    match payloadFingerprint body.payload, columnText (getD body.payload "hostname" .null) with
    | some fingerprint, some hostname =>
      if machineUuid = "" ∧ fingerprint = [] then
        httpError 422 "Thiếu machine_uuid/fingerprint"
      else importPayload I J admin body.payload machineUuid fingerprint hostname
    | _, _ => serverError

theorem importOffline_eq (body : OfflineImportRequest) (caller : Option Uuid) :
    importOffline I J body caller = (requireAdmin caller >>= fun admin => match admin with
      | .error e => pure (.error e)
      | .ok (_, admin) => importBody I J admin body) := rfl

/-- `import_offline` with an upload. -/
def importUpload {Zip : Type} (decryptOfflineBundle : Zip → Except String Bundle) (upload : Upload Zip)
    (caller : Option Uuid) : Handler (Except HttpError OfflineImportResponse) := do
  let admin ← requireAdmin caller
  match admin with
  | .error e => return .error e
  | .ok (_, admin) =>
    match upload.file with
    | none => httpError 400 "Thiếu file upload trong form data"
    | some zip =>
      match decryptOfflineBundle zip with
      | .error text => httpError 400 text
      | .ok bundle =>
        importBody I J admin ⟨mergedPayload bundle upload.orgId, bundle.signatureB64, bundle.publicKeyPem⟩

end Routes

/-! ## What is added -/

/-- **The condition**: the manifest has none of the fields that the inventory lacks, and the form names no
organisation, or the one of the inventory. -/
structure MergeKeeps (inventory manifest : List (String × Json)) (orgId : Option String) : Prop where
  manifest : ∀ field ∈ manifestFields, lookup field inventory = none → lookup field manifest = none
  form : ∀ id ∈ orText orgId none, lookup "org_id" inventory = some (.str id)

section Merge

variable {inventory manifest payload : List (String × Json)} {fields : List String} {orgId : Option String}
  {p : String × Json}

theorem of_mem_mergeManifest {k : String} {x : Json} (h : (k, x) ∈ mergeManifest manifest fields payload) :
    (k, x) ∈ payload ∨ lookup k payload = none := by
  induction fields generalizing payload with
  | nil => exact .inl h
  | cons field fields ih =>
    rw [mergeManifest] at h
    split at h
    · rename_i value hnone _
      rcases ih h with h | hnew
      · rcases mem_of_mem_setKey h with heq | h
        · obtain ⟨rfl, -⟩ := Prod.mk.inj heq
          exact .inr hnone
        · exact .inl h
      · refine .inr (lookup_eq_none fun p hp hkey => ?_)
        have hkept : p.1 ∈ (setKey field value payload).map Prod.fst :=
          mem_keys_setKey (List.mem_map_of_mem hp)
        obtain ⟨⟨k', y⟩, hq, hqkey⟩ := List.mem_map.mp hkept
        obtain rfl : k' = k := hqkey.trans hkey
        exact not_mem_of_lookup_eq_none hnew hq
    · exact ih h

theorem mem_keys_mergeManifest {k : String} (h : k ∈ payload.map Prod.fst) :
    k ∈ (mergeManifest manifest fields payload).map Prod.fst := by
  induction fields generalizing payload with
  | nil => exact h
  | cons field fields ih =>
    rw [mergeManifest]
    split
    · exact ih (mem_keys_setKey h)
    · exact ih h

theorem field_mem_mergeManifest {field : String} (hfield : field ∈ fields)
    (hmanifest : lookup field manifest ≠ none) :
    field ∈ (mergeManifest manifest fields payload).map Prod.fst := by
  induction fields generalizing payload with
  | nil => cases hfield
  | cons f fields ih =>
    rw [mergeManifest]
    rcases List.mem_cons.mp hfield with rfl | hfield
    · split
      · exact mem_keys_mergeManifest (List.mem_map.mpr ⟨_, mem_setKey_self, rfl⟩)
      · rename_i hnot
        refine mem_keys_mergeManifest ?_
        obtain ⟨value, hvalue⟩ := Option.ne_none_iff_exists'.mp hmanifest
        cases hpayload : lookup field payload with
        | none => exact absurd hvalue (hnot value hpayload)
        | some x => exact List.mem_map.mpr ⟨_, mem_of_lookup hpayload, rfl⟩
    · split
      · exact ih hfield
      · exact ih hfield

theorem mergeManifest_eq_self
    (h : ∀ field ∈ fields, lookup field payload = none → lookup field manifest = none) :
    mergeManifest manifest fields payload = payload := by
  induction fields with
  | nil => rfl
  | cons field fields ih =>
    rw [mergeManifest]
    split
    · rename_i value hpayload hmanifest
      rw [h field List.mem_cons_self hpayload] at hmanifest
      cases hmanifest
    · exact ih fun f hf => h f (List.mem_cons_of_mem _ hf)

variable {bundle : Bundle}

/-- What a form without an organisation, or with that of the inventory, leaves. -/
theorem MergeKeeps.mergedPayload_eq (h : MergeKeeps bundle.payload bundle.manifest orgId)
    (hkeys : (bundle.payload.map Prod.fst).Nodup) : mergedPayload bundle orgId = bundle.payload := by
  rw [mergedPayload, mergeManifest_eq_self h.manifest, mergeForm]
  cases hform : orText orgId none with
  | none => rfl
  | some id => exact setKey_of_mem hkeys (mem_of_lookup (h.form id hform))

/-- An entry of the merged payload has the value of the inventory, or is the organisation of the form, or has
a new key. -/
theorem of_mem_mergedPayload {k : String} {x : Json} (h : (k, x) ∈ mergedPayload bundle orgId) :
    (k, x) ∈ bundle.payload ∨ lookup k bundle.payload = none ∨ ∃ id, x = .str id := by
  have hmanifest : ∀ {x}, (k, x) ∈ mergeManifest bundle.manifest manifestFields bundle.payload →
      (k, x) ∈ bundle.payload ∨ lookup k bundle.payload = none ∨ ∃ id, x = .str id := fun h =>
    (of_mem_mergeManifest h).imp_right .inl
  rw [mergedPayload, mergeForm] at h
  split at h
  · rename_i id _
    rcases mem_of_mem_setKey h with heq | h
    · exact .inr (.inr ⟨id, (Prod.mk.inj heq).2⟩)
    · exact hmanifest h
  · exact hmanifest h

theorem mem_keys_mergedPayload {k : String}
    (h : k ∈ (mergeManifest bundle.manifest manifestFields bundle.payload).map Prod.fst) :
    k ∈ (mergedPayload bundle orgId).map Prod.fst := by
  rw [mergedPayload, mergeForm]
  split
  · exact mem_keys_setKey h
  · exact h

/-- **The text stays the same** if and only if nothing is added. -/
theorem canonicalJson_mergedPayload_iff {R : Reprs} (hfloat : ∀ q, Unquoted (R.float q).toList)
    (hkeys : (bundle.payload.map Prod.fst).Nodup) :
    canonicalJson R (mergedPayload bundle orgId) = canonicalJson R bundle.payload ↔
      MergeKeeps bundle.payload bundle.manifest orgId := by
  refine ⟨fun h => ?_, fun h => by rw [h.mergedPayload_eq hkeys]⟩
  have hmem : ∀ kvs : List (String × Json), ∀ m ∈ canonicalMembers R kvs,
      ∃ x, (m.1, x) ∈ kvs ∧ m.2 = canonical R x := by
    intro kvs m hm
    rw [canonicalMembers_eq_map] at hm
    obtain ⟨⟨k, x⟩, hx, rfl⟩ := List.mem_map.mp hm
    exact ⟨x, hx, rfl⟩
  have hcompatible : Compatible (canonicalMembers R bundle.payload)
      (canonicalMembers R (mergedPayload bundle orgId)) := by
    intro m hm n hn hkey
    obtain ⟨x, hx, hmx⟩ := hmem _ m hm
    obtain ⟨y, hy, hny⟩ := hmem _ n hn
    rw [hmx, hny]
    rw [← hkey] at hy
    rcases of_mem_mergedPayload hy with hy | hnone | ⟨id, rfl⟩
    · rw [(Prod.mk.inj (List.inj_on_of_nodup_map hkeys hx hy rfl)).2]
      exact .inl rfl
    · exact absurd hx (not_mem_of_lookup_eq_none hnone)
    · by_cases hid : x = .str id
      · exact .inl (by rw [hid])
      · exact .inr (textsApart_canonical hfloat hid)
  have hperm := perm_of_canonical_obj hcompatible h.symm
  refine ⟨fun field hfield hnone => ?_, fun id hid => ?_⟩
  · by_contra hmanifest
    have hkey : field ∈ (canonicalMembers R (mergedPayload bundle orgId)).map Prod.fst := by
      rw [canonicalMembers_eq_map, List.map_map]
      exact mem_keys_mergedPayload (field_mem_mergeManifest hfield hmanifest)
    rw [(hperm.map Prod.fst).mem_iff.symm] at hkey
    obtain ⟨m, hm, rfl⟩ := List.mem_map.mp hkey
    obtain ⟨x, hx, -⟩ := hmem _ m hm
    exact not_mem_of_lookup_eq_none hnone hx
  · have hset : ("org_id", Json.str id) ∈ mergedPayload bundle orgId := by
      rw [mergedPayload, mergeForm, show orText orgId none = some id from hid]
      exact mem_setKey_self
    have hmember : ("org_id", canonical R (.str id)) ∈ canonicalMembers R (mergedPayload bundle orgId) := by
      rw [canonicalMembers_eq_map]
      exact List.mem_map.mpr ⟨_, hset, rfl⟩
    obtain ⟨x, hx, hxtext⟩ := hmem _ _ (hperm.mem_iff.mpr hmember)
    by_cases hstr : x = .str id
    · exact lookup_of_mem hkeys (hstr ▸ hx)
    · exact absurd (congrArg (· ++ []) hxtext.symm) (textsApart_canonical hfloat hstr [] [])

end Merge

/-! ## The verdict -/

section Verdict

variable (I : Identification) (J : Importing)

theorem only_importBody_noBadRequest (admin : User) {body : OfflineImportRequest}
    (hverdict : J.verifySignature body.payload body.signatureB64 body.publicKeyPem = true) :
    (importBody I J admin body).Only (fun _ => True) (fun _ => True) NoBadRequest := by
  rw [importBody, hverdict, Bool.not_true, if_neg Bool.false_ne_true]
  extract_lets machineUuid
  split
  · split
    · refine only_pure ?_
      rintro e ⟨⟩
      decide
    · exact only_importPayload I J (fun _ _ => trivial) trivial (fun _ _ _ => trivial) (fun _ _ _ _ => trivial)
        _ _ _ _ _
  · exact only_pure noBadRequest_serverError

/-- **The verdict** on a body is that of the check of its signature. -/
theorem importBody_refuses_iff (admin : User) (body : OfflineImportRequest)
    (x : Alone Data DataWrite Env) :
    ((importBody I J admin body).alone x).1 = .error ⟨400, signatureRefusal⟩ ↔
      J.verifySignature body.payload body.signatureB64 body.publicKeyPem = false := by
  cases hverdict : J.verifySignature body.payload body.signatureB64 body.publicKeyPem with
  | false =>
    rw [importBody, hverdict]
    exact iff_of_true rfl rfl
  | true =>
    refine iff_of_false (fun hrefused => ?_) (by simp)
    have hother : NoBadRequest ((importBody I J admin body).alone x).1 :=
      ((only_importBody_noBadRequest I J admin hverdict).commitsKeep_view (I := fun _ => True)
        (fun _ _ _ _ => trivial) trivial).ends.1
    exact hother _ hrefused rfl

end Verdict

/-! ## Uploads -/

/-- What the route with an upload depends on. -/
structure Bundling (Zip : Type) where
  identification : Identification
  importing : Importing
  /-- Whether a signature under a key is one of some text. -/
  verify : String → String → List Char → Bool
  /-- `decrypt_offline_bundle`; an error is the text of a `ValueError`. -/
  decrypt : Zip → Except String Bundle

variable {Zip : Type}

/-- The route, with the check of a signature on an object. -/
def uploadRoute (V : Bundling Zip) (request : Upload Zip × Option Uuid) :
    Handler (Except HttpError OfflineImportResponse) :=
  importUpload V.identification
    { V.importing with verifySignature := verifySignature V.importing.reprs V.verify } V.decrypt request.1
    request.2

/-- What is assumed: a signature is one of exactly the text that was signed, any text can be signed, any
bundle can be made and is decrypted to what it was made of, and the decimal of a number is not quoted. -/
structure Bundling.Sound (V : Bundling Zip) : Prop where
  exact : ∀ publicKeyPem signatureB64 text text', V.verify publicKeyPem signatureB64 text = true →
    V.verify publicKeyPem signatureB64 text' = true → text = text'
  signs : ∀ text, ∃ publicKeyPem signatureB64, V.verify publicKeyPem signatureB64 text = true
  decrypts : ∀ bundle, ∃ zip, V.decrypt zip = .ok bundle
  unquoted : ∀ q, Unquoted (V.importing.reprs.float q).toList

/-- **What is expected of the verdict**: whatever is beside the inventory, the signature passes if and only
if it is one of the inventory. -/
def JudgedBySignature (V : Bundling Zip) (s : AtRest Data) (caller : Option Uuid)
    (inventory manifest : List (String × Json)) (orgId : Option String) : Prop :=
  ∀ zip signatureB64 publicKeyPem answers,
    V.decrypt zip = .ok ⟨inventory, signatureB64, publicKeyPem, manifest⟩ →
      ((serveAlone (uploadRoute V) s (⟨some zip, orgId⟩, caller) answers).1 ≠
          .error ⟨400, signatureRefusal⟩ ↔
        V.verify publicKeyPem signatureB64 (canonicalJson V.importing.reprs inventory) = true)

section Uploads

variable {V : Bundling Zip} {s : AtRest Data} {caller : Option Uuid}
  {inventory manifest : List (String × Json)} {orgId : Option String}

theorem passes_iff {bundle : Bundle} (hadmin : adminOf s.data caller ≠ none) {zip : Zip}
    (hzip : V.decrypt zip = .ok bundle) (answers : ℕ → Env) :
    (serveAlone (uploadRoute V) s (⟨some zip, orgId⟩, caller) answers).1 ≠ .error ⟨400, signatureRefusal⟩ ↔
      V.verify bundle.publicKeyPem bundle.signatureB64
        (canonicalJson V.importing.reprs (mergedPayload bundle orgId)) = true := by
  obtain ⟨r, hr, hfound⟩ := alone_requireAdmin caller ⟨s.data, [], s.drawn, answers⟩
  rw [serveAlone, uploadRoute, importUpload, alone_bind, hr]
  cases r with
  | error e => exact absurd hfound.symm hadmin
  | ok admin =>
    dsimp only
    rw [hzip]
    dsimp only
    rw [Ne, importBody_refuses_iff, Bool.not_eq_false]
    rfl

/-- **When the verdict is that on the inventory**: if and only if nothing is added. -/
theorem judgedBySignature_iff (hsound : V.Sound) (hadmin : adminOf s.data caller ≠ none)
    (hkeys : (inventory.map Prod.fst).Nodup) :
    JudgedBySignature V s caller inventory manifest orgId ↔ MergeKeeps inventory manifest orgId := by
  constructor
  · intro hjudged
    obtain ⟨publicKeyPem, signatureB64, hsigned⟩ :=
      hsound.signs (canonicalJson V.importing.reprs inventory)
    let bundle : Bundle := ⟨inventory, signatureB64, publicKeyPem, manifest⟩
    obtain ⟨zip, hzip⟩ := hsound.decrypts bundle
    have hpasses := (passes_iff hadmin hzip fun _ => ⟨0, id, 0, none⟩).mp
      ((hjudged zip signatureB64 publicKeyPem _ hzip).mpr hsigned)
    have hsame : canonicalJson V.importing.reprs (mergedPayload bundle orgId) =
        canonicalJson V.importing.reprs bundle.payload := hsound.exact _ _ _ _ hpasses hsigned
    exact (canonicalJson_mergedPayload_iff hsound.unquoted hkeys).mp hsame
  · intro hkeeps zip signatureB64 publicKeyPem answers hzip
    have hmerged : mergedPayload ⟨inventory, signatureB64, publicKeyPem, manifest⟩ orgId = inventory :=
      hkeeps.mergedPayload_eq hkeys
    rw [passes_iff hadmin hzip, hmerged]

end Uploads

/-! ## A bundle whose manifest says more -/

/-- A signature is the text that it signs, and a bundle is not encrypted. -/
def plainBundling : Bundling Bundle where
  identification := exampleIdentification
  importing := { exampleImporting with reprs := ⟨fun _ => "0.5", fun s => s⟩ }
  verify := fun _ signatureB64 text => decide (signatureB64.toList = text)
  decrypt := .ok

theorem verify_plainBundling {publicKeyPem signatureB64 : String} {text : List Char} :
    plainBundling.verify publicKeyPem signatureB64 text = true ↔ signatureB64.toList = text :=
  decide_eq_true_iff

theorem sound_plainBundling : plainBundling.Sound where
  exact _ _ _ _ h h' := (verify_plainBundling.mp h).symm.trans (verify_plainBundling.mp h')
  signs text := ⟨"", String.ofList text, verify_plainBundling.mpr String.toList_ofList⟩
  decrypts bundle := ⟨bundle, rfl⟩
  unquoted _ := ⟨'0', ['.', '5'], by simp [plainBundling], by decide⟩

def plainInventory : List (String × Json) :=
  [("fingerprint", .obj [("smbios_uuid", .str "4C4C4544")]), ("hostname", .str "PC-AIRGAP-01")]

/-- It was exported at some time. -/
def exportManifest : List (String × Json) := [("exported_at", .str "2026-10-02T00:00:00Z")]

/-- **A signed inventory is refused** when its manifest says when it was exported. -/
theorem signed_bundle_refused : ¬ ∀ (V : Bundling Bundle), V.Sound → ∀ (s : AtRest Data)
    (caller : Option Uuid), adminOf s.data caller ≠ none → ∀ inventory manifest orgId,
      (inventory.map Prod.fst).Nodup → JudgedBySignature V s caller inventory manifest orgId := by
  intro h
  let signatureB64 := String.ofList (canonicalJson plainBundling.importing.reprs plainInventory)
  let bundle : Bundle := ⟨plainInventory, signatureB64, "", exportManifest⟩
  have hadmin : adminOf (⟨adminData, 0⟩ : AtRest Data).data (some 0) ≠ none := by decide
  have hjudged : JudgedBySignature plainBundling ⟨adminData, 0⟩ (some 0) plainInventory exportManifest none :=
    h plainBundling sound_plainBundling ⟨adminData, 0⟩ (some 0) hadmin plainInventory exportManifest none
      (by decide)
  have hzip : plainBundling.decrypt bundle = .ok bundle := rfl
  have hpasses := (passes_iff hadmin hzip fun _ => exampleAnswer).mp
    ((hjudged bundle signatureB64 "" _ hzip).mpr (verify_plainBundling.mpr String.toList_ofList))
  have hsame : canonicalJson plainBundling.importing.reprs plainInventory =
      canonicalJson plainBundling.importing.reprs (mergedPayload bundle none) :=
    String.toList_ofList.symm.trans (verify_plainBundling.mp hpasses)
  exact absurd hsame (by decide +kernel)

theorem judgedBySignature_iff_repeated :
    JudgedBySignature plainBundling ⟨adminData, 0⟩ (some 0) plainInventory plainInventory none ↔
      MergeKeeps plainInventory plainInventory none :=
  judgedBySignature_iff sound_plainBundling (by decide) (by decide)

end AssetInventory.Fleet
