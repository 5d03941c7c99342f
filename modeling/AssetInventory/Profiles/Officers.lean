import AssetInventory.Lib.Sql
import AssetInventory.Server.Database

/-!
# The migration of the officers

Revision `b5c6d7e8f9a0` moves the officer of a profile from eight columns of `system_profiles` into a
table of its own.  The upgrade makes one officer for each profile that names one, under a key computed
from the key of the profile, and the downgrade copies the officers back.

* `Before`, `After`: the two schemas, with the columns that the migration reads; all other columns of a
  profile are one value that it does not look at.
* `upgrade`, `downgrade`: the two directions, step by step.
* `upgrade_spec`: what the upgrade makes of a database; `migration_roundtrip`: nothing is lost.

Both directions inspect the schema before each step; between these two revisions the answers are fixed,
and the steps are written down for them.  The lengths of the columns agree on both sides.
-/

namespace AssetInventory.Profiles.Officers

open PyTime RowStore Server

/-! ## The two schemas -/

/-- The columns `officer_*` of a profile. -/
structure OfficerColumns where
  officerName : Option String
  officerOrganization : Option String
  officerTitle : Option String
  officerPhone : Option String
  officerEmail : Option String
  officerNote : Option String
  officerAssignedAt : Option Time
  officerAssignedBy : Option Uuid
  deriving DecidableEq

/-- New columns are `NULL`. -/
def OfficerColumns.null : OfficerColumns := ⟨none, none, none, none, none, none, none, none⟩

/-- A row of `system_profiles`: the columns in which the two schemas differ, two that the migration
reads, and all others. -/
structure ProfileRow (C α : Type) where
  columns : C
  createdBy : Uuid
  updatedAt : Time
  others : α
  deriving DecidableEq

/-- Other columns in place of those in which the schemas differ. -/
def ProfileRow.withColumns {C D α : Type} (row : ProfileRow C α) (columns : D) : ProfileRow D α where
  columns := columns
  createdBy := row.createdBy
  updatedAt := row.updatedAt
  others := row.others

/-- A row of `officers`. -/
structure Officer where
  name : String
  organization : Option String
  title : Option String
  phone : Option String
  email : Option String
  note : Option String
  createdBy : Uuid
  createdAt : Time
  updatedAt : Time
  deriving DecidableEq

/-- The tables of a revision; `created_by` refers to a user. -/
structure Database (C α : Type) where
  users : List Uuid
  profiles : Table Uuid (ProfileRow C α)
  createdBy_mem : ∀ id row, profiles.get id = some row → row.createdBy ∈ users

/-- The database at revision `bbcbbb152a4b`. -/
abbrev Before (α : Type) := Database OfficerColumns α

/-- The database at revision `b5c6d7e8f9a0`: a profile has a column `officer_id`. -/
structure After (α : Type) extends Database (Option Uuid) α where
  officers : Table Uuid Officer

/-- `ALTER TABLE system_profiles` and an `UPDATE` of it, which leave `created_by` alone. -/
def Database.alter {C D α : Type} (db : Database C α) (f : Uuid → ProfileRow C α → ProfileRow D α)
    (hf : ∀ id row, (f id row).createdBy = row.createdBy) : Database D α where
  users := db.users
  profiles := db.profiles.alter f
  createdBy_mem := by
    intro id row hrow
    obtain ⟨old, hold, rfl⟩ := Option.map_eq_some_iff.mp hrow
    rw [hf]
    exact db.createdBy_mem id old hold

/-- How an `INSERT` fails. -/
inductive IntegrityError where
  | notNull | foreignKey | uniqueKey
  deriving DecidableEq

variable {α : Type}

/-! ## The upgrade -/

/-- The column `officer_id` is added; it is `NULL`. -/
def addOfficerId (_ : Uuid) (row : ProfileRow OfficerColumns α) :
    ProfileRow (OfficerColumns × Option Uuid) α :=
  row.withColumns (row.columns, none)

/-- `WHERE sp.officer_name IS NOT NULL AND sp.officer_name <> ''`. -/
def named (columns : OfficerColumns) : Bool :=
  Sql.holds (Sql.and ((Sql.isNull columns.officerName).map not) (Sql.ne columns.officerName ""))

/-- A row of `source`. -/
structure Source where
  profileId : Uuid
  officerId : Uuid
  columns : OfficerColumns
  updatedAt : Time
  createdBy : Uuid

/-- `COALESCE((SELECT u.id FROM users u WHERE u.id = src.officer_assigned_by LIMIT 1),
src.created_by)`. -/
def Source.creator (users : List Uuid) (src : Source) : Uuid :=
  (users.find? fun user => Sql.holds (Sql.eq src.columns.officerAssignedBy user)).getD src.createdBy

/-- The row that is inserted for a source with a name.  `updated_at` is not `NULL`, so that `now()` is
never reached. -/
def Source.officer (users : List Uuid) (src : Source) (name : String) : Officer where
  name := name
  organization := src.columns.officerOrganization
  title := src.columns.officerTitle
  phone := src.columns.officerPhone
  email := src.columns.officerEmail
  note := src.columns.officerNote
  createdBy := src.creator users
  createdAt := src.columns.officerAssignedAt.getD src.updatedAt
  updatedAt := src.updatedAt

/-- `INSERT INTO officers ... SELECT ... FROM source`. -/
def insertOfficers (users : List Uuid) :
    Table Uuid Officer → List Source → Except IntegrityError (Table Uuid Officer)
  | officers, [] => .ok officers
  | officers, src :: rest =>
    match src.columns.officerName with
    | none => .error .notNull
    | some name =>
      if src.creator users ∉ users then .error .foreignKey
      else if (officers.get src.officerId).isSome then .error .uniqueKey
      else insertOfficers users (officers.insert src.officerId (src.officer users name)) rest

/-- `UPDATE system_profiles sp SET officer_id = src.officer_id FROM source src WHERE sp.id =
src.profile_id AND sp.officer_id IS NULL`. -/
def linkOfficer (srcs : List Source) (id : Uuid) (row : ProfileRow (OfficerColumns × Option Uuid) α) :
    ProfileRow (OfficerColumns × Option Uuid) α :=
  match srcs.find? fun src => decide (src.profileId = id) && row.columns.2.isNone with
  | none => row
  | some src => row.withColumns (row.columns.1, some src.officerId)

/-- After the `UPDATE` the columns `officer_*` are dropped. -/
def linkAndDrop (srcs : List Source) (id : Uuid) (row : ProfileRow (OfficerColumns × Option Uuid) α) :
    ProfileRow (Option Uuid) α :=
  (linkOfficer srcs id row).withColumns (linkOfficer srcs id row).columns.2

theorem createdBy_linkAndDrop (srcs : List Source) (id : Uuid)
    (row : ProfileRow (OfficerColumns × Option Uuid) α) :
    (linkAndDrop srcs id row).createdBy = row.createdBy := by
  change (linkOfficer srcs id row).createdBy = _
  unfold linkOfficer
  split <;> rfl

section Upgrade

-- `md5(sp.id::text || '-officer-migration')::uuid` of a key
variable (md5 : Uuid → Uuid)

/-- The row of `source` for a profile. -/
def sourceOf (id : Uuid) (row : ProfileRow (OfficerColumns × Option Uuid) α) : Source where
  profileId := id
  officerId := md5 id
  columns := row.columns.1
  updatedAt := row.updatedAt
  createdBy := row.createdBy

/-- `WITH source AS ...`. -/
def sources (profiles : Table Uuid (ProfileRow (OfficerColumns × Option Uuid) α)) : List Source :=
  (profiles.rowsWhere fun row => named row.columns.1).map fun entry => sourceOf md5 entry.1 entry.2

/-- `upgrade`: the table `officers`, the column `officer_id`, the data, and the old columns are
dropped. -/
def upgrade (db : Before α) : Except IntegrityError (After α) :=
  let altered := db.alter addOfficerId fun _ _ => rfl
  let srcs := sources md5 altered.profiles
  match insertOfficers altered.users .empty srcs with
  | .error e => .error e
  | .ok officers =>
    .ok { altered.alter (linkAndDrop srcs) (createdBy_linkAndDrop srcs) with officers := officers }

end Upgrade

/-! ## The downgrade -/

/-- The columns `officer_*` are added; they are `NULL`. -/
def addLegacyColumns (_ : Uuid) (row : ProfileRow (Option Uuid) α) :
    ProfileRow (Option Uuid × OfficerColumns) α :=
  row.withColumns (row.columns, .null)

/-- What the downgrade copies into a profile. -/
def Officer.columns (officer : Officer) : OfficerColumns where
  officerName := some officer.name
  officerOrganization := officer.organization
  officerTitle := officer.title
  officerPhone := officer.phone
  officerEmail := officer.email
  officerNote := officer.note
  officerAssignedAt := some officer.createdAt
  officerAssignedBy := some officer.createdBy

/-- `UPDATE system_profiles sp SET ... FROM officers o WHERE sp.officer_id = o.id`. -/
def copyOfficer (officers : Table Uuid Officer) (row : ProfileRow (Option Uuid × OfficerColumns) α) :
    ProfileRow (Option Uuid × OfficerColumns) α :=
  match row.columns.1.bind officers.get with
  | none => row
  | some officer => row.withColumns (row.columns.1, officer.columns)

/-- After the `UPDATE` the column `officer_id` is dropped. -/
def copyAndDrop (officers : Table Uuid Officer) (_ : Uuid)
    (row : ProfileRow (Option Uuid × OfficerColumns) α) : ProfileRow OfficerColumns α :=
  (copyOfficer officers row).withColumns (copyOfficer officers row).columns.2

theorem createdBy_copyAndDrop (officers : Table Uuid Officer) (id : Uuid)
    (row : ProfileRow (Option Uuid × OfficerColumns) α) :
    (copyAndDrop officers id row).createdBy = row.createdBy := by
  change (copyOfficer officers row).createdBy = _
  unfold copyOfficer
  split <;> rfl

/-- `downgrade`: the old columns, the data, and `officer_id` and the table are dropped. -/
def downgrade (db : After α) : Before α :=
  (db.alter addLegacyColumns fun _ _ => rfl).alter (copyAndDrop db.officers)
    (createdBy_copyAndDrop db.officers)

/-! ## What the upgrade makes of a database -/

theorem named_iff {columns : OfficerColumns} :
    named columns = true ↔ ∃ name, columns.officerName = some name ∧ name ≠ "" := by
  rw [named, Sql.holds_and, Bool.and_eq_true, Sql.holds_ne]
  constructor
  · exact fun h => h.2
  · rintro ⟨name, hname, hne⟩
    refine ⟨?_, name, hname, hne⟩
    rw [hname]
    rfl

/-- The creator is the user who assigned the officer, if there is such a user. -/
theorem Source.creator_eq {users : List Uuid} {src : Source} {user : Uuid}
    (hassigned : src.columns.officerAssignedBy = some user) (huser : user ∈ users) :
    src.creator users = user := by
  have hfind : users.find? (fun u => Sql.holds (Sql.eq src.columns.officerAssignedBy u)) =
      some user := by
    cases hfound : users.find? fun u => Sql.holds (Sql.eq src.columns.officerAssignedBy u) with
    | none =>
      have hnone := List.find?_eq_none.mp hfound user huser
      exact absurd ((Sql.holds_eq _ _).mpr hassigned) hnone
    | some found =>
      have hholds := List.find?_some hfound
      rw [Sql.holds_eq, hassigned] at hholds
      exact hholds.symm
  rw [Source.creator, hfind, Option.getD_some]

theorem Source.creator_mem {users : List Uuid} {src : Source} (h : src.createdBy ∈ users) :
    src.creator users ∈ users := by
  unfold Source.creator
  cases hfound : users.find? fun u => Sql.holds (Sql.eq src.columns.officerAssignedBy u) with
  | none => exact h
  | some found => exact List.mem_of_find?_eq_some hfound

/-- **The insertion** succeeds for sources with names, under fresh keys that differ, and inserts one row
for each. -/
theorem insertOfficers_spec {users : List Uuid} {srcs : List Source} {officers : Table Uuid Officer}
    (hnames : ∀ src ∈ srcs, named src.columns = true) (husers : ∀ src ∈ srcs, src.createdBy ∈ users)
    (hnodup : (srcs.map Source.officerId).Nodup)
    (hfresh : ∀ src ∈ srcs, officers.get src.officerId = none) :
    ∃ result, insertOfficers users officers srcs = .ok result ∧
      ∀ key officer, result.get key = some officer ↔ officers.get key = some officer ∨
        ∃ src ∈ srcs, ∃ name, src.columns.officerName = some name ∧ src.officerId = key ∧
          src.officer users name = officer := by
  induction srcs generalizing officers with
  | nil => exact ⟨officers, rfl, fun key officer => by simp⟩
  | cons src rest ih =>
    obtain ⟨name, hname, -⟩ := named_iff.mp (hnames src List.mem_cons_self)
    have hcreator := src.creator_mem (husers src List.mem_cons_self)
    have hkey := hfresh src List.mem_cons_self
    rw [List.map_cons, List.nodup_cons] at hnodup
    have hrest : ∀ other ∈ rest,
        (officers.insert src.officerId (src.officer users name)).get other.officerId = none := by
      intro other hother
      have hne : other.officerId ≠ src.officerId :=
        fun heq => hnodup.1 (heq ▸ List.mem_map.mpr ⟨other, hother, rfl⟩)
      rw [Table.get_insert_of_ne _ hne]
      exact hfresh other (List.mem_cons_of_mem _ hother)
    obtain ⟨result, hresult, hget⟩ := ih (fun s hs => hnames s (List.mem_cons_of_mem _ hs))
      (fun s hs => husers s (List.mem_cons_of_mem _ hs)) hnodup.2 hrest
    refine ⟨result, ?_, fun key officer => ?_⟩
    · rw [insertOfficers, hname]
      simpa [hcreator, hkey] using hresult
    · rw [hget]
      constructor
      · rintro (hold | ⟨other, hother, hsource⟩)
        · rcases Table.get_insert_cases hold with ⟨rfl, rfl, -⟩ | hold
          · exact .inr ⟨src, List.mem_cons_self, name, hname, rfl, rfl⟩
          · exact .inl hold
        · exact .inr ⟨other, List.mem_cons_of_mem _ hother, hsource⟩
      · rintro (hold | ⟨other, hother, other_name, hother_name, rfl, rfl⟩)
        · exact .inl (Table.get_insert_of_get hold)
        · rcases List.mem_cons.mp hother with rfl | hother
          · rw [hname] at hother_name
            cases hother_name
            exact .inl (Table.get_insert_self _ hkey)
          · exact .inr ⟨other, hother, other_name, hother_name, rfl, rfl⟩

section Spec

variable {md5 : Uuid → Uuid} {db : Before α}

def officerOf (md5 : Uuid → Uuid) (db : Before α) (id : Uuid) (row : ProfileRow OfficerColumns α)
    (name : String) : Officer :=
  (sourceOf md5 id (addOfficerId id row)).officer db.users name

theorem mem_sources {src : Source} :
    src ∈ sources md5 (db.alter addOfficerId fun _ _ => rfl).profiles ↔
      ∃ id row, db.profiles.get id = some row ∧ named row.columns = true ∧
        src = sourceOf md5 id (addOfficerId id row) := by
  rw [sources, List.mem_map]
  constructor
  · rintro ⟨⟨id, altered⟩, hmem, rfl⟩
    obtain ⟨hget, hnamed⟩ := Table.mem_rowsWhere.mp hmem
    obtain ⟨row, hrow, rfl⟩ := Option.map_eq_some_iff.mp hget
    exact ⟨id, row, hrow, hnamed, rfl⟩
  · rintro ⟨id, row, hrow, hnamed, rfl⟩
    refine ⟨(id, addOfficerId id row), Table.mem_rowsWhere.mpr ⟨?_, hnamed⟩, rfl⟩
    exact Option.map_eq_some_iff.mpr ⟨row, hrow, rfl⟩

/-- The keys of the officers differ if those computed from the keys of the profiles do. -/
theorem nodup_officerIds
    (hmd5 : ∀ a ∈ db.profiles.keys, ∀ b ∈ db.profiles.keys, md5 a = md5 b → a = b) :
    ((sources md5 (db.alter addOfficerId fun _ _ => rfl).profiles).map Source.officerId).Nodup := by
  have hkeys : (sources md5 (db.alter addOfficerId fun _ _ => rfl).profiles).map Source.officerId =
      (((db.alter addOfficerId fun _ _ => rfl).profiles.rowsWhere
        fun row => named row.columns.1).map Prod.fst).map md5 := by
    rw [sources, List.map_map, List.map_map]
    rfl
  have hmem : ∀ a ∈ ((db.alter addOfficerId fun _ _ => rfl).profiles.rowsWhere
      fun row => named row.columns.1).map Prod.fst, a ∈ db.profiles.keys := by
    intro a ha
    obtain ⟨entry, hentry, rfl⟩ := List.mem_map.mp ha
    have haltered := Table.mem_keys_of_get (Table.mem_rowsWhere.mp hentry).1
    exact haltered
  rw [hkeys]
  exact List.Nodup.map_on (fun a ha b hb => hmd5 a (hmem a ha) b (hmem b hb))
    (Table.nodup_rowsWhere _ _)

theorem linkAndDrop_eq {id : Uuid} {row : ProfileRow OfficerColumns α}
    (hrow : db.profiles.get id = some row) :
    linkAndDrop (sources md5 (db.alter addOfficerId fun _ _ => rfl).profiles) id
        (addOfficerId id row) =
      row.withColumns (if named row.columns then some (md5 id) else none) := by
  unfold linkAndDrop linkOfficer
  cases hfound : (sources md5 (db.alter addOfficerId fun _ _ => rfl).profiles).find?
      fun src => decide (src.profileId = id) && (addOfficerId id row).columns.2.isNone with
  | none =>
    have hnot : ¬ named row.columns = true := by
      intro hnamed
      have hnone := List.find?_eq_none.mp hfound _ (mem_sources.mpr ⟨id, row, hrow, hnamed, rfl⟩)
      exact hnone (by simp [sourceOf, addOfficerId, ProfileRow.withColumns])
    rw [if_neg hnot]
    rfl
  | some src =>
    obtain ⟨other, otherRow, hother, hnamed, rfl⟩ := mem_sources.mp (List.mem_of_find?_eq_some hfound)
    have hid : other = id := by
      have hmatch := List.find?_some hfound
      rw [Bool.and_eq_true, decide_eq_true_eq] at hmatch
      exact hmatch.1
    subst hid
    rw [hrow] at hother
    cases hother
    rw [if_pos hnamed]
    rfl

/-- **The upgrade** succeeds, and makes one officer for each profile that names one. -/
theorem upgrade_spec
    (hmd5 : ∀ a ∈ db.profiles.keys, ∀ b ∈ db.profiles.keys, md5 a = md5 b → a = b) :
    ∃ db', upgrade md5 db = .ok db' ∧ db'.users = db.users ∧ db'.profiles.keys = db.profiles.keys ∧
      (∀ id row, db.profiles.get id = some row → db'.profiles.get id =
        some (row.withColumns (if named row.columns then some (md5 id) else none))) ∧
      ∀ key officer, db'.officers.get key = some officer ↔
        ∃ id row name, db.profiles.get id = some row ∧ row.columns.officerName = some name ∧
          name ≠ "" ∧ md5 id = key ∧ officerOf md5 db id row name = officer := by
  have hcreated : ∀ src ∈ sources md5 (db.alter addOfficerId fun _ _ => rfl).profiles,
      src.createdBy ∈ db.users := by
    intro src hsrc
    obtain ⟨id, row, hrow, -, rfl⟩ := mem_sources.mp hsrc
    exact db.createdBy_mem id row hrow
  have hnamed : ∀ src ∈ sources md5 (db.alter addOfficerId fun _ _ => rfl).profiles,
      named src.columns = true := by
    intro src hsrc
    obtain ⟨id, row, -, hnamed, rfl⟩ := mem_sources.mp hsrc
    exact hnamed
  obtain ⟨officers, hofficers, hget⟩ := insertOfficers_spec hnamed hcreated
    (nodup_officerIds hmd5) fun src _ => (rfl : Table.empty.get src.officerId = none)
  have hok : upgrade md5 db = .ok
      { (db.alter addOfficerId fun _ _ => rfl).alter
          (linkAndDrop (sources md5 (db.alter addOfficerId fun _ _ => rfl).profiles))
          (createdBy_linkAndDrop _) with officers := officers } := by
    unfold upgrade
    dsimp only
    rw [show (db.alter addOfficerId fun _ _ => rfl).users = db.users from rfl, hofficers]
  refine ⟨_, hok, rfl, rfl, fun id row hrow => ?_, fun key officer => ?_⟩
  · change ((db.profiles.get id).map (addOfficerId id)).map _ = _
    rw [hrow, Option.map_some, Option.map_some, linkAndDrop_eq hrow]
  · rw [hget, Table.get_empty]
    constructor
    · rintro (hnone | ⟨src, hsrc, name, hname, rfl, rfl⟩)
      · cases hnone
      · obtain ⟨id, row, hrow, hnamed, rfl⟩ := mem_sources.mp hsrc
        obtain ⟨other, hother, hne⟩ := named_iff.mp hnamed
        have hsame : other = name := Option.some.inj (hother.symm.trans hname)
        exact ⟨id, row, name, hrow, hname, hsame ▸ hne, rfl, rfl⟩
    · rintro ⟨id, row, name, hrow, hname, hne, rfl, rfl⟩
      have hnamed : named row.columns = true := named_iff.mpr ⟨name, hname, hne⟩
      exact .inr ⟨_, mem_sources.mpr ⟨id, row, hrow, hnamed, rfl⟩, name, hname, rfl, rfl⟩

/-! ## Nothing is lost -/

/-- **After the upgrade** each profile with a name has an officer of its own, with its own values; there
are no other officers, the other profiles have none, and all other columns are as they were. -/
structure Upgraded (db : Before α) (db' : After α) : Prop where
  users : db'.users = db.users
  keys : db'.profiles.keys = db.profiles.keys
  others : ∀ id row, db.profiles.get id = some row →
    ∃ officerId, db'.profiles.get id = some (row.withColumns officerId)
  own : ∀ id row name, db.profiles.get id = some row → row.columns.officerName = some name →
    name ≠ "" → ∃ officerId officer, db'.profiles.get id = some (row.withColumns (some officerId)) ∧
      db'.officers.get officerId = some officer ∧ officer.name = name ∧
      officer.organization = row.columns.officerOrganization ∧
      officer.title = row.columns.officerTitle ∧ officer.phone = row.columns.officerPhone ∧
      officer.email = row.columns.officerEmail ∧ officer.note = row.columns.officerNote
  without : ∀ id row, db.profiles.get id = some row →
    row.columns.officerName = none ∨ row.columns.officerName = some "" →
    db'.profiles.get id = some (row.withColumns none)
  unshared : ∀ id₁ id₂ row₁ row₂ officerId, db'.profiles.get id₁ = some row₁ →
    db'.profiles.get id₂ = some row₂ → row₁.columns = some officerId →
    row₂.columns = some officerId → id₁ = id₂
  owned : ∀ officerId officer, db'.officers.get officerId = some officer →
    ∃ id row, db'.profiles.get id = some row ∧ row.columns = some officerId

/-- A profile whose officer comes back whole: with a name, a time, and a user who still exists. -/
def Complete (users : List Uuid) (columns : OfficerColumns) : Prop :=
  (∃ name, columns.officerName = some name ∧ name ≠ "") ∧ columns.officerAssignedAt ≠ none ∧
    ∃ user ∈ users, columns.officerAssignedBy = some user

/-- **After the downgrade** all columns but those of the officer are as they were, and those are if the
officer was complete. -/
structure Restored (db after : Before α) : Prop where
  users : after.users = db.users
  keys : after.profiles.keys = db.profiles.keys
  others : ∀ id row, db.profiles.get id = some row →
    ∃ columns, after.profiles.get id = some (row.withColumns columns)
  columns : ∀ id row, db.profiles.get id = some row → Complete db.users row.columns →
    after.profiles.get id = some row

theorem get_downgrade (db' : After α) (id : Uuid) :
    (downgrade db').profiles.get id = (db'.profiles.get id).map fun row =>
      row.withColumns (((row.columns.bind db'.officers.get).map Officer.columns).getD .null) := by
  change ((db'.profiles.get id).map (addLegacyColumns id)).map _ = _
  rw [Option.map_map]
  refine Option.map_congr fun row _ => ?_
  change (copyOfficer db'.officers (addLegacyColumns id row)).withColumns _ = _
  unfold copyOfficer
  cases hofficer : (addLegacyColumns id row).columns.1.bind db'.officers.get with
  | none =>
    have hnone : row.columns.bind db'.officers.get = none := hofficer
    rw [hnone]
    rfl
  | some officer =>
    have hsome : row.columns.bind db'.officers.get = some officer := hofficer
    rw [hsome]
    rfl

theorem columns_officerOf {id : Uuid} {row : ProfileRow OfficerColumns α} {name : String}
    (hname : row.columns.officerName = some name) (hcomplete : Complete db.users row.columns) :
    (officerOf md5 db id row name).columns = row.columns := by
  obtain ⟨-, hat, user, huser, hby⟩ := hcomplete
  obtain ⟨time, htime⟩ := Option.ne_none_iff_exists'.mp hat
  have hcreator : (officerOf md5 db id row name).createdBy = user := Source.creator_eq hby huser
  have hcreated : (officerOf md5 db id row name).createdAt = time := by
    change row.columns.officerAssignedAt.getD row.updatedAt = time
    rw [htime, Option.getD_some]
  rw [Officer.columns, hcreator, hcreated, ← hby, ← htime]
  change OfficerColumns.mk (some name) _ _ _ _ _ _ _ = _
  rw [← hname]
  rfl

/-- **The migration loses nothing**, provided that the keys computed from the keys of the profiles
differ. -/
theorem migration_roundtrip (md5 : Uuid → Uuid) (db : Before α)
    (hmd5 : ∀ a ∈ db.profiles.keys, ∀ b ∈ db.profiles.keys, md5 a = md5 b → a = b) :
    ∃ db', upgrade md5 db = .ok db' ∧ Upgraded db db' ∧ Restored db (downgrade db') := by
  obtain ⟨db', hok, husers, hkeys, hprofiles, hofficers⟩ := upgrade_spec hmd5
  have hold : ∀ {id row}, db'.profiles.get id = some row → ∃ old, db.profiles.get id = some old := by
    intro id row hrow
    have hmem := Table.mem_keys_of_get hrow
    rw [hkeys, Table.mem_keys, Option.isSome_iff_exists] at hmem
    exact hmem
  -- a profile of the upgraded database that has an officer
  have hlinked : ∀ {id row officerId}, db'.profiles.get id = some row →
      row.columns = some officerId → md5 id = officerId := by
    intro id row officerId hrow hofficer
    obtain ⟨old, hget⟩ := hold hrow
    rw [hprofiles id old hget, Option.some.injEq] at hrow
    subst hrow
    change (if named old.columns then some (md5 id) else none) = some officerId at hofficer
    split_ifs at hofficer
    exact Option.some.inj hofficer
  have hnew : ∀ id row name, db.profiles.get id = some row → row.columns.officerName = some name →
      name ≠ "" → db'.profiles.get id = some (row.withColumns (some (md5 id))) ∧
        db'.officers.get (md5 id) = some (officerOf md5 db id row name) := by
    intro id row name hrow hname hne
    refine ⟨?_, (hofficers _ _).mpr ⟨id, row, name, hrow, hname, hne, rfl, rfl⟩⟩
    rw [hprofiles id row hrow, if_pos (named_iff.mpr ⟨name, hname, hne⟩)]
  refine ⟨db', hok, ⟨husers, hkeys, fun id row hrow => ⟨_, hprofiles id row hrow⟩, ?_, ?_, ?_, ?_⟩,
    husers, hkeys, ?_, ?_⟩
  · intro id row name hrow hname hne
    obtain ⟨hprofile, hofficer⟩ := hnew id row name hrow hname hne
    exact ⟨_, _, hprofile, hofficer, rfl, rfl, rfl, rfl, rfl, rfl⟩
  · intro id row hrow hname
    have hnot : ¬ named row.columns = true := by
      rw [named_iff]
      rintro ⟨name, hsome, hne⟩
      rcases hname with hnone | hempty
      · rw [hnone] at hsome
        cases hsome
      · rw [hempty] at hsome
        exact hne (Option.some.inj hsome).symm
    rw [hprofiles id row hrow, if_neg hnot]
  · intro id₁ id₂ row₁ row₂ officerId hrow₁ hrow₂ hofficer₁ hofficer₂
    have hsame : md5 id₁ = md5 id₂ :=
      (hlinked hrow₁ hofficer₁).trans (hlinked hrow₂ hofficer₂).symm
    have hmem₁ := Table.mem_keys_of_get hrow₁
    have hmem₂ := Table.mem_keys_of_get hrow₂
    rw [hkeys] at hmem₁ hmem₂
    exact hmd5 id₁ hmem₁ id₂ hmem₂ hsame
  · intro officerId officer hofficer
    obtain ⟨id, row, name, hrow, hname, hne, rfl, -⟩ := (hofficers _ _).mp hofficer
    exact ⟨id, _, (hnew id row name hrow hname hne).1, rfl⟩
  · intro id row hrow
    rw [get_downgrade, hprofiles id row hrow]
    exact ⟨_, rfl⟩
  · intro id row hrow hcomplete
    obtain ⟨name, hname, hne⟩ := hcomplete.1
    obtain ⟨hprofile, hofficer⟩ := hnew id row name hrow hname hne
    rw [get_downgrade, hprofile, Option.map_some]
    have hbind : (row.withColumns (some (md5 id))).columns.bind db'.officers.get =
        some (officerOf md5 db id row name) := hofficer
    rw [hbind, Option.map_some, Option.getD_some, columns_officerOf hname hcomplete]
    rfl

end Spec

/-- A profile whose officer has a common name. -/
def exampleRow (organization : String) (assignedBy : Uuid) : ProfileRow OfficerColumns String where
  columns :=
    { officerName := some "Nguyen Van A"
      officerOrganization := some organization
      officerTitle := none
      officerPhone := none
      officerEmail := none
      officerNote := none
      officerAssignedAt := some (seconds 1790899200)
      officerAssignedBy := some assignedBy }
  createdBy := 1
  updatedAt := seconds 1790900000
  others := "drafted"

/-- Two profiles whose officers have the same name; the user who assigned the second one is gone. -/
def twoProfiles : Before String where
  users := [1]
  profiles := (Table.empty.insert 10 (exampleRow "Org A" 1)).insert 11 (exampleRow "Org B" 2)
  createdBy_mem := by
    intro id row hrow
    rcases Table.get_insert_cases hrow with ⟨-, rfl, -⟩ | hrow
    · exact List.mem_singleton.mpr rfl
    · rcases Table.get_insert_cases hrow with ⟨-, rfl, -⟩ | hrow
      · exact List.mem_singleton.mpr rfl
      · cases hrow

theorem migration_roundtrip_two : ∃ db', upgrade (· + 100) twoProfiles = .ok db' ∧
    Upgraded twoProfiles db' ∧ Restored twoProfiles (downgrade db') :=
  migration_roundtrip (· + 100) twoProfiles fun _ _ _ _ h => Nat.add_right_cancel h

end AssetInventory.Profiles.Officers
