import AssetInventory.Lib.DepthFirst
import AssetInventory.Server.Users

/-!
# The organisation tree

Two services collect an organisation and everything below it.  Each builds its own dictionary from
the rows of `organizations` and walks it by its own recursion.  The parent column may hold anything:
the id of the row itself, a row further down, or no row at all.

* `visibleOrgIds`: what a user may see; a set of ids.
* `scopeOrgs`: what the subscription to an alert covers; a list of ids.
* `Under`: the tree that both are about, as a relation.
* `visibleWalk_eq`, `scopeWalk_eq`: both recursions carry out the same walk.
* `closures_agree`: both return, without duplicates, the organisations under their start.

The first argument of a recursion is the depth that the interpreter allows.
-/

namespace AssetInventory.Server

open Relation DepthFirst

/-- A row of `SELECT id, parent_id FROM organizations`. -/
structure OrgRow where
  id : Uuid
  parentId : Option Uuid
  deriving DecidableEq

/-- `by_parent.setdefault(parent_id, []).append(oid)`. -/
def addChild (d : Option Uuid → List Uuid) (r : OrgRow) : Option Uuid → List Uuid :=
  Function.update d r.parentId (d r.parentId ++ [r.id])

/-- `by_parent`.  The key of the rows without a parent is `none`, in the code the empty string. -/
def byParent (rows : List OrgRow) : Option Uuid → List Uuid := rows.foldl addChild fun _ => []

def isSuperAdmin (user : User) : Bool := user.role ∈ superRoles

/-- `walk` of `visible_org_ids`. -/
def visibleWalk (rows : List OrgRow) : ℕ → Uuid → Finset Uuid → Option (Finset Uuid)
  | 0, _, _ => none
  | depth + 1, oid, visible =>
    if oid ∈ visible then some visible
    else
      (byParent rows (some oid)).foldlM (fun visible child => visibleWalk rows depth child visible)
        (insert oid visible)

def visibleOrgIds (depth : ℕ) (rows : List OrgRow) (user : User) : Option (Finset Uuid) :=
  if isSuperAdmin user then some (rows.map OrgRow.id).toFinset
  else visibleWalk rows depth user.orgId ∅

/-- `scope_mode` of a subscription. -/
inductive ScopeMode where
  | system | orgOnly | orgTree
  deriving DecidableEq

/-- `out` and `seen` of `scope_orgs`. -/
structure ScopeMarks where
  out : List Uuid
  seen : Finset Uuid
  deriving DecidableEq

/-- `walk` of `scope_orgs`. -/
def scopeWalk (rows : List OrgRow) : ℕ → Uuid → ScopeMarks → Option ScopeMarks
  | 0, _, _ => none
  | depth + 1, oid, marks =>
    if oid ∈ marks.seen then some marks
    else
      (byParent rows (some oid)).foldlM (fun marks child => scopeWalk rows depth child marks)
        { out := marks.out ++ [oid], seen := insert oid marks.seen }

def scopeOrgs (depth : ℕ) (rows : List OrgRow) (orgId : Option Uuid) (scopeMode : ScopeMode) :
    Option (List Uuid) :=
  if scopeMode = .system then some (rows.map OrgRow.id)
  else
    match orgId with
    | none => some []
    | some orgId =>
      if scopeMode = .orgOnly then some [orgId]
      else (scopeWalk rows depth orgId { out := [], seen := ∅ }).map ScopeMarks.out

/-! ## The tree -/

/-- `b` is an organisation whose parent column holds `a`. -/
def ChildOf (rows : List OrgRow) (a b : Uuid) : Prop :=
  ∃ r ∈ rows, r.id = b ∧ r.parentId = some a

/-- `b` is `a`, or an organisation under it. -/
def Under (rows : List OrgRow) : Uuid → Uuid → Prop := ReflTransGen (ChildOf rows)

/-- The children that `by_parent` lists below an organisation. -/
def childrenOf (rows : List OrgRow) (oid : Uuid) : List Uuid := byParent rows (some oid)

variable {p orgId : Option Uuid} {c a b oid : Uuid}

theorem mem_foldl_byParent (rows : List OrgRow) (d : Option Uuid → List Uuid) :
    c ∈ rows.foldl addChild d p ↔ c ∈ d p ∨ ∃ r ∈ rows, r.id = c ∧ r.parentId = p := by
  induction rows generalizing d with
  | nil => simp
  | cons r rest ih =>
      rw [List.foldl_cons, ih, addChild]
      by_cases hp : r.parentId = p
      · subst hp
        simp only [Function.update_self, List.mem_append, List.mem_cons]
        grind
      · rw [Function.update_of_ne (Ne.symm hp)]
        simp [hp]

variable {rows : List OrgRow}

theorem mem_byParent : c ∈ byParent rows p ↔ ∃ r ∈ rows, r.id = c ∧ r.parentId = p := by
  rw [byParent, mem_foldl_byParent]
  simp

theorem below_iff : Below (childrenOf rows) a b ↔ ChildOf rows a b :=
  mem_byParent

theorem under_iff : ReflTransGen (Below (childrenOf rows)) a b ↔ Under rows a b := by
  have h : Below (childrenOf rows) = ChildOf rows := by
    ext a b
    exact below_iff
  rw [h, Under]

theorem childrenOf_subset (rows : List OrgRow) (a : Uuid) :
    ∀ c ∈ childrenOf rows a, c ∈ (rows.map OrgRow.id).toFinset := by
  intro c hc
  obtain ⟨r, hr, hid, -⟩ := mem_byParent.mp hc
  exact List.mem_toFinset.mpr (List.mem_map.mpr ⟨r, hr, hid⟩)

/-! ## The two recursions -/

/-- A loop over representations carries out the loop over what they represent. -/
theorem foldlM_map {S T : Type} {f : S → Uuid → Option S} {g : T → Uuid → Option T} (rep : S → T)
    (h : ∀ s c, g (rep s) c = (f s c).map rep) (cs : List Uuid) (s : S) :
    cs.foldlM g (rep s) = (cs.foldlM f s).map rep := by
  induction cs generalizing s with
  | nil => rfl
  | cons c rest ih =>
      rw [List.foldlM_cons, List.foldlM_cons, h]
      cases f s c with
      | none => rfl
      | some s' => exact ih s'

theorem toFinset_snoc (seen : List Uuid) (oid : Uuid) :
    (seen ++ [oid]).toFinset = insert oid seen.toFinset := by
  ext w
  simp

/-- **The walk of `visible_org_ids`** keeps the set of the marked organisations. -/
theorem visibleWalk_eq (rows : List OrgRow) (depth : ℕ) (oid : Uuid) (seen : List Uuid) :
    visibleWalk rows depth oid seen.toFinset =
      (walk (childrenOf rows) depth oid seen).map List.toFinset := by
  induction depth generalizing oid seen with
  | zero => rfl
  | succ depth ih =>
      by_cases hm : oid ∈ seen
      · rw [visibleWalk, if_pos (List.mem_toFinset.mpr hm), walk_marked depth hm, Option.map_some]
      · rw [visibleWalk, if_neg (by rwa [List.mem_toFinset]), walk_fresh depth hm, ← toFinset_snoc]
        exact foldlM_map List.toFinset (fun s c => ih c s) (byParent rows (some oid)) (seen ++ [oid])

/-- What `scope_orgs` keeps of the marked organisations. -/
def scopeMarks (seen : List Uuid) : ScopeMarks := { out := seen, seen := seen.toFinset }

theorem scopeMarks_snoc (seen : List Uuid) (oid : Uuid) : scopeMarks (seen ++ [oid]) =
      { out := (scopeMarks seen).out ++ [oid], seen := insert oid (scopeMarks seen).seen } := by
  rw [scopeMarks, toFinset_snoc]
  rfl

/-- **The walk of `scope_orgs`** keeps the list of the marked organisations and their set. -/
theorem scopeWalk_eq (rows : List OrgRow) (depth : ℕ) (oid : Uuid) (seen : List Uuid) :
    scopeWalk rows depth oid (scopeMarks seen) =
      (walk (childrenOf rows) depth oid seen).map scopeMarks := by
  induction depth generalizing oid seen with
  | zero => rfl
  | succ depth ih =>
      by_cases hm : oid ∈ seen
      · have hm' : oid ∈ (scopeMarks seen).seen := List.mem_toFinset.mpr hm
        rw [scopeWalk, if_pos hm', walk_marked depth hm, Option.map_some]
      · have hm' : oid ∉ (scopeMarks seen).seen := fun h => hm (List.mem_toFinset.mp h)
        rw [scopeWalk, if_neg hm', walk_fresh depth hm, ← scopeMarks_snoc]
        exact foldlM_map scopeMarks (fun s c => ih c s) (byParent rows (some oid)) (seen ++ [oid])

theorem under_of_perm {rows' : List OrgRow} (h : rows.Perm rows') (a b : Uuid) :
    Under rows a b ↔ Under rows' a b := by
  have hchild : ChildOf rows = ChildOf rows' := by
    ext a b
    simp only [ChildOf, h.mem_iff]
  rw [Under, Under, hchild]

theorem card_ids_le (rows : List OrgRow) : (rows.map OrgRow.id).toFinset.card ≤ rows.length := by
  simpa using List.toFinset_card_le (rows.map OrgRow.id)

theorem exists_visibleOrgIds (rows : List OrgRow) {user : User} (huser : isSuperAdmin user = false) :
    ∃ ids, (∀ depth, rows.length + 1 < depth → visibleOrgIds depth rows user = some ids) ∧
      ∀ oid, oid ∈ ids ↔ Under rows user.orgId oid := by
  obtain ⟨out, hwalk, -, hmem⟩ :=
    exists_walk_iff (childrenOf_subset rows) user.orgId
  have hcard := card_ids_le rows
  refine ⟨out.toFinset, fun depth hdepth => ?_, fun oid => ?_⟩
  · have h := visibleWalk_eq rows depth user.orgId []
    rw [hwalk depth (by omega)] at h
    rw [visibleOrgIds, if_neg (by rw [huser]; exact Bool.false_ne_true)]
    exact h
  · rw [List.mem_toFinset, hmem, under_iff]

theorem exists_scopeOrgs (rows : List OrgRow) (start : Uuid) :
    ∃ out, (∀ depth, rows.length + 1 < depth →
        scopeOrgs depth rows (some start) .orgTree = some out) ∧
      out.Nodup ∧ ∀ oid, oid ∈ out ↔ Under rows start oid := by
  obtain ⟨out, hwalk, hnodup, hmem⟩ :=
    exists_walk_iff (childrenOf_subset rows) start
  have hcard := card_ids_le rows
  refine ⟨out, fun depth hdepth => ?_, hnodup, fun oid => ?_⟩
  · have h := scopeWalk_eq rows depth start []
    rw [hwalk depth (by omega)] at h
    change (scopeWalk rows depth start (scopeMarks [])).map ScopeMarks.out = some out
    rw [h]
    rfl
  · rw [hmem, under_iff]

/-- What `visible_org_ids` returns of a user who is not a super administrator, however deep it went. -/
theorem mem_visibleOrgIds {depth : ℕ} {user : User} {ids : Finset Uuid}
    (huser : isSuperAdmin user = false) (h : visibleOrgIds depth rows user = some ids) :
    oid ∈ ids ↔ Under rows user.orgId oid := by
  rw [visibleOrgIds, if_neg (by rw [huser]; exact Bool.false_ne_true)] at h
  have hwalk := visibleWalk_eq rows depth user.orgId []
  rw [show (([] : List Uuid).toFinset) = ∅ from rfl, h] at hwalk
  obtain ⟨out, hout, rfl⟩ := Option.map_eq_some_iff.mp hwalk.symm
  rw [List.mem_toFinset, (walk_visits hout).mem_iff, under_iff]

theorem mem_scopeOrgs {depth : ℕ} {start : Uuid} {out : List Uuid}
    (h : scopeOrgs depth rows (some start) .orgTree = some out) :
    oid ∈ out ↔ Under rows start oid := by
  change (scopeWalk rows depth start (scopeMarks [])).map ScopeMarks.out = some out at h
  rw [scopeWalk_eq, Option.map_map] at h
  obtain ⟨seen, hseen, rfl⟩ := Option.map_eq_some_iff.mp h
  show oid ∈ seen ↔ _
  rw [(walk_visits hseen).mem_iff, under_iff]

theorem scopeOrgs_of_le {depth more : ℕ} {scopeMode : ScopeMode}
    {ids : List Uuid} (hle : depth ≤ more) (h : scopeOrgs depth rows orgId scopeMode = some ids) :
    scopeOrgs more rows orgId scopeMode = some ids := by
  cases scopeMode with
  | system => exact h
  | orgOnly => cases orgId <;> exact h
  | orgTree =>
    cases orgId with
    | none => exact h
    | some start =>
      change (scopeWalk rows depth start (scopeMarks [])).map ScopeMarks.out = some ids at h
      change (scopeWalk rows more start (scopeMarks [])).map ScopeMarks.out = some ids
      rw [scopeWalk_eq, Option.map_map] at h ⊢
      obtain ⟨seen, hseen, hids⟩ := Option.map_eq_some_iff.mp h
      exact Option.map_eq_some_iff.mpr ⟨seen, walk_of_le hle hseen, hids⟩

/-- Every scope is computed at a depth above the number of the organisations. -/
theorem exists_scopeOrgs_deep (rows : List OrgRow) (orgId : Option Uuid) (scopeMode : ScopeMode) :
    ∃ ids, scopeOrgs (rows.length + 2) rows orgId scopeMode = some ids := by
  cases scopeMode with
  | system => exact ⟨_, rfl⟩
  | orgOnly => cases orgId <;> exact ⟨_, rfl⟩
  | orgTree =>
    cases orgId with
    | none => exact ⟨_, rfl⟩
    | some start =>
      obtain ⟨out, hout, -⟩ := exists_scopeOrgs rows start
      exact ⟨out, hout _ (by omega)⟩

theorem scopeOrgs_deep {depth : ℕ} {scopeMode : ScopeMode}
    {ids : List Uuid} (h : scopeOrgs depth rows orgId scopeMode = some ids) :
    scopeOrgs (rows.length + 2) rows orgId scopeMode = some ids := by
  obtain ⟨deep, hdeep⟩ := exists_scopeOrgs_deep rows orgId scopeMode
  rcases Nat.le_total depth (rows.length + 2) with hle | hle
  · exact scopeOrgs_of_le hle h
  · have hsame := scopeOrgs_of_le hle hdeep
    rw [h] at hsame
    rw [hdeep, hsame]

/-- Two organisations that are each other's parent, one that is its own, one whose parent is gone. -/
def exampleOrgs : List OrgRow := [⟨1, some 2⟩, ⟨2, some 1⟩, ⟨3, some 3⟩, ⟨4, some 9⟩, ⟨5, some 1⟩]

/-- A viewer of an organisation. -/
def exampleViewer (orgId : Uuid) : User := { exampleUser with orgId := orgId }

example : scopeOrgs 7 exampleOrgs (some 1) .orgTree = some [1, 2, 5] := by decide

end AssetInventory.Server
