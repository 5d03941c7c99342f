import AssetInventory.Lib.Escapes
import Mathlib.Algebra.Order.Group.Int

/-!
# Healing the layout of an LLM

An LLM that is asked for the layout of a network diagram leaves nodes out.  The route checks the layout and puts the
missing nodes back: the Internet, the devices of the profile, the default workstation, and from the previous layout the
nodes that are no devices, with their declarations, and the notes.

* `validateLayoutPayload`, `selfHealLayout`: the check and the repair.
* `Healed`: what the layout is expected to be like afterwards.
* `Healable`: when it will be; `healed_iff`.
-/

namespace AssetInventory.DiagramAi

open PyLoads PyDict

/-! ## Numbers -/

/-- The floats of an interpreter. -/
structure Floats (F : Type) where
  /-- The greatest integer that does not overflow. -/
  bound : ℕ
  bound_ge : 2 ^ 53 ≤ bound
  /-- `float(n)` of an integer that does not. -/
  ofInt : ℤ → F
  /-- `float(s)`; `none` is `ValueError`. -/
  ofText : Str → Option F
  isZero : F → Bool
  lt : F → F → Bool
  add : F → F → F

/-- The exceptions that are told apart. -/
inductive PyError where
  | typeError
  | valueError
  | overflowError
  /-- `HTTPException(502, detail)`. -/
  | badGateway (detail : Str)
  deriving DecidableEq

/-- A `dict`. -/
abbrev Dict (F : Type) := List (Str × Value F)

/-- A device of the profile; the identity is `str(d.id)`. -/
structure SystemDevice where
  id : Str
  deviceType : String

def internetNodeId : Str := codes "__internet__"

def workstationNodeId : Str := codes "__workstation__"

section Code

variable {F : Type} (fl : Floats F)

/-- `float(v)`. -/
def pyFloat : Value F → Except PyError F
  | .float x => .ok x
  | .int n => if n.natAbs ≤ fl.bound then .ok (fl.ofInt n) else .error .overflowError
  | .bool b => .ok (fl.ofInt (if b then 1 else 0))
  | .str s =>
    match fl.ofText s with
    | some x => .ok x
    | none => .error .valueError
  | _ => .error .typeError

/-- `bool(v)`. -/
def truthy : Value F → Bool
  | .none => false
  | .bool b => b
  | .int n => decide (n ≠ 0)
  | .float x => !fl.isZero x
  | .str s => !s.isEmpty
  | .list xs => !xs.isEmpty
  | .dict entries => !entries.isEmpty

/-- `d.get(key)`. -/
def getItem (d : Dict F) (key : String) : Value F := (get? d (codes key)).getD .none

/-- `v in keys`, where the keys are texts: a value that cannot be a key raises `TypeError`. -/
def inKeys (v : Value F) (keys : List Str) : Except PyError Bool :=
  match v with
  | .str s => .ok (decide (s ∈ keys))
  | .list _ | .dict _ => .error .typeError
  | _ => .ok false

/-! ## The check -/

/-- The coordinates are numbers. -/
def checkPosition (pos : Dict F) : Except PyError Unit := do
  let _ ← pyFloat fl (getItem pos "x")
  let _ ← pyFloat fl (getItem pos "y")

def checkNode (node : Str × Value F) : Except PyError Unit :=
  match node.2 with
  | .dict pos =>
    match checkPosition fl pos with
    | .error .typeError | .error .valueError =>
      .error (.badGateway (codes "Tọa độ node \"" ++ node.1 ++ codes "\" không phải số."))
    | r => r
  | _ => .error (.badGateway (codes "Node \"" ++ node.1 ++ codes "\" thiếu tọa độ."))

def checkEdge (nodeIds : List Str) (e : Value F) : Except PyError Unit :=
  let dangling : PyError := .badGateway (codes "Có edge trỏ tới node không tồn tại trong layout AI trả về.")
  match e with
  | .dict edge => do
    if !(← inKeys (getItem edge "source") nodeIds) then .error dangling
    else if !(← inKeys (getItem edge "target") nodeIds) then .error dangling
    else .ok ()
  | _ => .error dangling

def checkEdges (nodeIds : List Str) : Value F → Except PyError Unit
  | .none => .ok ()
  | .list edges => edges.forM (checkEdge nodeIds)
  | _ => .error (.badGateway (codes "\"edges\" phải là mảng."))

def validateLayoutPayload (data : Value F) : Except PyError Unit :=
  let missing : PyError := .badGateway (codes "Layout AI trả về thiếu \"nodes\" (map nodeId → \x7bx, y\x7d).")
  match data with
  | .dict d =>
    match getItem d "nodes" with
    | .dict nodes =>
      if nodes = [] then .error missing
      else do
        nodes.forM (checkNode fl)
        checkEdges (nodes.map Prod.fst) (getItem d "edges")
    | _ => .error missing
  | _ => .error missing

/-! ## The repair -/

/-- `{"x": x, "y": y}`. -/
def position (x y : Value F) : Value F := .dict [(codes "x", x), (codes "y", y)]

/-- `if key not in d: d[key] = value`. -/
def setDefault (key : Str) (value : Value F) (d : Dict F) : Dict F :=
  if key ∈ d.map Prod.fst then d else setItem key value d

def missingDevices (devices : List SystemDevice) (nodes : Dict F) : List SystemDevice :=
  devices.filter fun d => decide (d.id ∉ nodes.map Prod.fst)

/-- The loop over the missing devices. -/
def placeDevices (missing : List SystemDevice) (nodes : Dict F) : Dict F :=
  missing.zipIdx.foldl (fun nodes d => setItem d.1.id (position (.int (280 * (d.2 + 1))) (.int 240)) nodes) nodes

/-- `max(xs, default=0.0)`. -/
def pyMax : List F → F
  | [] => fl.ofInt 0
  | x :: xs => xs.foldl (fun cur y => if fl.lt cur y then y else cur) x

/-- The `x` of the nodes that have a position. -/
def nodeXs (nodes : Dict F) : Except PyError (List F) :=
  (nodes.filterMap fun node =>
    match node.2 with
    | .dict pos => some ((get? pos (codes "x")).getD (.int 0))
    | _ => none).mapM (pyFloat fl)

def noWorkstation (devices : List SystemDevice) : Bool := !devices.any fun d => decide (d.deviceType = "workstation")

/-- The nodes that belong to every layout. -/
def completeNodes (devices : List SystemDevice) (nodes : Dict F) : Except PyError (Dict F) :=
  let nodes := setDefault internetNodeId (position (.int 0) (.int 0)) nodes
  let nodes := placeDevices (missingDevices devices nodes) nodes
  if noWorkstation devices = true ∧ workstationNodeId ∉ nodes.map Prod.fst then do
    let xs ← nodeXs fl nodes
    .ok (setItem workstationNodeId (position (.float (fl.add (pyMax fl xs) (fl.ofInt 280))) (.int 0)) nodes)
  else .ok nodes

/-- `for c in v or []`. -/
def iterate (v : Value F) : Except PyError (List (Value F)) :=
  if truthy fl v = false then .ok []
  else
    match v with
    | .list xs => .ok xs
    | .str s => .ok (s.map fun c => .str [c])
    | .dict entries => .ok (entries.map fun e => .str e.1)
    | _ => .error .typeError

/-- The identity of a custom node, if it is a text. -/
def customId : Value F → Option Str
  | .dict c =>
    match getItem c "id" with
    | .str s => some s
    | _ => none
  | _ => none

/-- The declarations of the custom nodes, by their identities. -/
def metaById (customs : List (Value F)) : Dict F :=
  customs.foldl (fun d c =>
    match customId c with
    | some nid => setItem nid c d
    | none => d) []

/-- The set of the identities, as far as they are texts. -/
def declaredIds : List (Value F) → Except PyError (List Str)
  | [] => .ok []
  | c :: customs =>
    match c with
    | .dict entries =>
      match getItem entries "id" with
      | .list _ | .dict _ => .error .typeError
      | .str s => (declaredIds customs).map fun ids => s :: ids
      | _ => declaredIds customs
    | _ => declaredIds customs

/-- The nodes, the custom nodes and their identities while old nodes are restored. -/
structure Restoring (F : Type) where
  nodes : Dict F
  customs : List (Value F)
  declared : List Str

/-- One old node. -/
def restoreNode (metas : Dict F) (st : Restoring F) (node : Str × Value F) : Restoring F :=
  match get? metas node.1, node.2 with
  | some c, .dict pos =>
    if node.1 ∈ st.nodes.map Prod.fst then st
    else
      { nodes := setItem node.1 (.dict pos) st.nodes
        customs := if node.1 ∈ st.declared then st.customs else st.customs ++ [c]
        declared := if node.1 ∈ st.declared then st.declared else node.1 :: st.declared }
  | _, _ => st

/-- A value that is a list, or an empty one. -/
def listOr : Value F → List (Value F)
  | .list xs => xs
  | _ => []

/-- A value that is a `dict`, or an empty one. -/
def dictOr : Value F → Dict F
  | .dict entries => entries
  | _ => []

/-- The notes with those of the previous layout. -/
def restoreNotes (oldNotes notes : Dict F) : Dict F := oldNotes.foldl (fun notes e => setDefault e.1 e.2 notes) notes

/-- What is restored from a previous layout that has nodes. -/
def restore (old oldNodes data nodes : Dict F) : Except PyError (Dict F) := do
  let oldCustoms ← iterate fl (getItem old "customNodes")
  let customs := listOr (getItem data "customNodes")
  let declared ← declaredIds customs
  let st := oldNodes.foldl (restoreNode (metaById oldCustoms)) ⟨nodes, customs, declared⟩
  let data := setItem (codes "customNodes") (.list st.customs) (setItem (codes "nodes") (.dict st.nodes) data)
  match getItem old "notes" with
  | .dict oldNotes =>
    .ok (setItem (codes "notes") (.dict (restoreNotes oldNotes (dictOr (getItem data "notes")))) data)
  | _ => .ok data

/-- `_self_heal_layout` on a layout that has nodes. -/
def selfHealLayout (data : Dict F) (devices : List SystemDevice) (old : Option (Dict F)) : Except PyError (Dict F) := do
  let nodes ← completeNodes fl devices (dictOr (getItem data "nodes"))
  match old with
  | none => .ok (setItem (codes "nodes") (.dict nodes) data)
  | some old =>
    match getItem old "nodes" with
    | .dict oldNodes => restore fl old oldNodes data nodes
    | _ => .ok (setItem (codes "nodes") (.dict nodes) data)

/-! ## What is expected -/

/-- A number. -/
def numeric : Value F → Bool
  | .int _ | .float _ => true
  | _ => false

/-- The positions of the previous layout are objects with numbers. -/
def OldNumeric (old : Option (Dict F)) : Prop :=
  ∀ layout, old = some layout → ∀ node ∈ dictOr (getItem layout "nodes"),
    ∃ pos, node.2 = .dict pos ∧ numeric (getItem pos "x") = true ∧ numeric (getItem pos "y") = true

/-- One of the custom nodes declares the node. -/
def DeclaredIn (customs : List (Value F)) (nid : Str) : Prop := ∃ c ∈ customs, customId c = some nid

def Declared (layout : Dict F) (nid : Str) : Prop := DeclaredIn (listOr (getItem layout "customNodes")) nid

/-- The node belongs to every layout, or the model returned it. -/
def Placed (data : Dict F) (devices : List SystemDevice) (nid : Str) : Prop :=
  nid ∈ (dictOr (getItem data "nodes")).map Prod.fst ∨ nid = internetNodeId ∨ nid ∈ devices.map SystemDevice.id ∨
    noWorkstation devices = true ∧ nid = workstationNodeId

/-- **What the layout is expected to be like afterwards.** -/
structure Healed (data : Dict F) (devices : List SystemDevice) (old : Option (Dict F)) (data' : Dict F) : Prop where
  valid : validateLayoutPayload fl (.dict data') = .ok ()
  placed : ∀ nid, Placed data devices nid → nid ∈ (dictOr (getItem data' "nodes")).map Prod.fst
  oldNode : ∀ layout, old = some layout → ∀ nid ∈ (dictOr (getItem layout "nodes")).map Prod.fst,
    Declared layout nid → nid ∈ (dictOr (getItem data' "nodes")).map Prod.fst ∧ Declared data' nid
  oldNote : ∀ layout, old = some layout → ∀ nid note, get? (dictOr (getItem layout "notes")) nid = some note →
    get? (dictOr (getItem data' "notes")) nid = some ((get? (dictOr (getItem data "notes")) nid).getD note)
  node : Extends (dictOr (getItem data "nodes")) (dictOr (getItem data' "nodes"))
  edge : getItem data' "edges" = getItem data "edges"
  custom : listOr (getItem data "customNodes") <+: listOr (getItem data' "customNodes")
  note : Extends (dictOr (getItem data "notes")) (dictOr (getItem data' "notes"))
  again : selfHealLayout fl data' devices old = .ok data'

/-- The value can be iterated over, or is falsy. -/
def Iterable (v : Value F) : Prop :=
  match v with
  | .list _ | .str _ | .dict _ => True
  | v => truthy fl v = false

/-- The value can be in a set. -/
def hashable : Value F → Bool
  | .list _ | .dict _ => false
  | _ => true

/-- Every identity can be in a set. -/
def AllHashable (customs : List (Value F)) : Prop :=
  ∀ entries, .dict entries ∈ customs → hashable (getItem entries "id") = true

def withInternet (nodes : Dict F) : Dict F := setDefault internetNodeId (position (.int 0) (.int 0)) nodes

/-- The nodes of the previous layout can be restored. -/
structure Restorable (data : Dict F) (devices : List SystemDevice) (old : Dict F) : Prop where
  iterable : Iterable fl (getItem old "customNodes")
  hashable : AllHashable (listOr (getItem data "customNodes"))
  /-- A declaration is restored with its node only. -/
  declared : ∀ nid ∈ (dictOr (getItem old "nodes")).map Prod.fst, Declared old nid → Placed data devices nid →
    Declared data nid
  range : ∀ nid pos, get? (dictOr (getItem old "nodes")) nid = some (.dict pos) → Declared old nid →
    ¬Placed data devices nid → checkPosition fl pos = .ok ()

/-- When it will be. -/
structure Healable (data : Dict F) (devices : List SystemDevice) (old : Option (Dict F)) : Prop where
  count : 280 * (missingDevices devices (withInternet (dictOr (getItem data "nodes")))).length ≤ fl.bound
  /-- Without nodes of the previous layout its notes are not looked at. -/
  notes : ∀ layout, old = some layout → (∀ oldNodes, getItem layout "nodes" ≠ .dict oldNodes) →
    ∀ nid ∈ (dictOr (getItem layout "notes")).map Prod.fst, nid ∈ (dictOr (getItem data "notes")).map Prod.fst
  restorable : ∀ layout oldNodes, old = some layout → getItem layout "nodes" = .dict oldNodes →
    Restorable fl data devices layout

end Code

/-! ## Lookups -/

section Lookups

variable {F : Type} {fl : Floats F}

theorem getItem_setItem (key : String) (value : Value F) (d : Dict F) (k : String) :
    getItem (setItem (codes key) value d) k = if codes key = codes k then value else getItem d k := by
  unfold getItem
  rw [get?_setItem]
  split_ifs <;> rfl

theorem getItem_setItem_self (key : String) (value : Value F) (d : Dict F) :
    getItem (setItem (codes key) value d) key = value :=
  (getItem_setItem key value d key).trans (if_pos rfl)

theorem getItem_setItem_ne {key k : String} (h : codes key ≠ codes k) (value : Value F) (d : Dict F) :
    getItem (setItem (codes key) value d) k = getItem d k :=
  (getItem_setItem key value d k).trans (if_neg h)

variable {value c : Value F}

theorem setItem_of_getItem {key : String} {d : Dict F} (h : getItem d key = value)
    (hvalue : value ≠ .none) : setItem (codes key) value d = d := by
  refine setItem_of_get? ?_
  rw [getItem] at h
  cases hget : get? d (codes key) with
  | none =>
    rw [hget] at h
    exact absurd h.symm hvalue
  | some v =>
    rw [hget] at h
    rw [← h]
    rfl

theorem get?_setDefault (key : Str) (value : Value F) (d : Dict F) (k : Str) :
    get? (setDefault key value d) k = (get? d k).or (if key = k then some value else none) := by
  unfold setDefault
  split_ifs with hmem hk hk
  · rw [or_get?_eq_get? (hk ▸ hmem)]
  · rw [Option.or_none]
  · rw [get?_setItem, if_pos hk, or_get?_eq_other (hk ▸ hmem)]
  · rw [get?_setItem, if_neg hk, Option.or_none]

theorem extends_setDefault (key : Str) (value : Value F) (d : Dict F) : Extends d (setDefault key value d) := by
  intro k v hv
  rw [get?_setDefault, hv, Option.some_or]

variable {key nid : Str}

theorem mem_keys_setDefault {d : Dict F} {k : Str} :
    k ∈ (setDefault key value d).map Prod.fst ↔ k = key ∨ k ∈ d.map Prod.fst := by
  unfold setDefault
  split_ifs with hmem
  · exact ⟨.inr, fun h => h.elim (fun hk => hk ▸ hmem) id⟩
  · exact mem_keys_setItem

theorem mem_of_mem_setDefault {d : Dict F} {entry : Str × Value F}
    (h : entry ∈ setDefault key value d) : entry = (key, value) ∨ entry ∈ d := by
  unfold setDefault at h
  split_ifs at h
  · exact .inr h
  · exact mem_of_mem_setItem h

theorem get?_restoreNotes (oldNotes notes : Dict F) (nid : Str) :
    get? (restoreNotes oldNotes notes) nid = (get? notes nid).or (get? oldNotes nid) := by
  induction oldNotes generalizing notes with
  | nil => exact (Option.or_none).symm
  | cons e oldNotes ih =>
    rw [restoreNotes, List.foldl_cons, ← restoreNotes, ih, get?_setDefault, get?_cons, Option.or_assoc]
    split_ifs <;> rfl

theorem restoreNotes_of_subset {oldNotes notes : Dict F}
    (h : ∀ nid ∈ oldNotes.map Prod.fst, nid ∈ notes.map Prod.fst) : restoreNotes oldNotes notes = notes := by
  induction oldNotes with
  | nil => rfl
  | cons e oldNotes ih =>
    rw [restoreNotes, List.foldl_cons, setDefault, if_pos (h _ List.mem_cons_self), ← restoreNotes]
    exact ih fun nid hnid => h nid (List.mem_cons_of_mem _ hnid)

end Lookups

/-! ## Accepted layouts -/

section Accepted

variable {F : Type} {fl : Floats F}

theorem forM_eq_ok_iff {ε : Type} {α : Type} {f : α → Except ε Unit} {xs : List α} :
    xs.forM f = .ok () ↔ ∀ x ∈ xs, f x = .ok () := by
  induction xs with
  | nil => exact ⟨fun _ _ h => absurd h List.not_mem_nil, fun _ => rfl⟩
  | cons x xs ih =>
    rw [List.forall_mem_cons]
    show (f x >>= fun _ => xs.forM f) = .ok () ↔ _
    cases hx : f x with
    | error e => exact ⟨(nomatch ·), fun h => nomatch h.1⟩
    | ok u => exact ih.trans (and_iff_right rfl).symm

theorem checkNode_eq_ok_iff {node : Str × Value F} :
    checkNode fl node = .ok () ↔ ∃ pos, node.2 = .dict pos ∧ checkPosition fl pos = .ok () := by
  obtain ⟨nid, v⟩ := node
  cases v with
  | dict pos =>
    simp only [checkNode]
    cases h : checkPosition fl pos with
    | ok u => exact ⟨fun _ => ⟨pos, rfl, h⟩, fun _ => rfl⟩
    | error e =>
      refine ⟨fun hok => ?_, fun ⟨_, hpos, hok⟩ => ?_⟩
      · cases e <;> cases hok
      · cases hpos
        rw [h] at hok
        cases hok
  | _ => exact ⟨(nomatch ·), fun ⟨_, h, _⟩ => nomatch h⟩

theorem checkEdge_dict_eq_ok_iff {ids : List Str} {edge : Dict F} :
    checkEdge ids (.dict edge) = .ok () ↔
      inKeys (getItem edge "source") ids = .ok true ∧ inKeys (getItem edge "target") ids = .ok true := by
  simp only [checkEdge]
  rcases inKeys (getItem edge "source") ids with e | _ | _
  · exact ⟨(nomatch ·), fun h => nomatch h.1⟩
  · exact ⟨(nomatch ·), fun h => nomatch h.1⟩
  · rcases inKeys (getItem edge "target") ids with e | _ | _
    · exact ⟨(nomatch ·), fun h => nomatch h.2⟩
    · exact ⟨(nomatch ·), fun h => nomatch h.2⟩
    · exact ⟨fun _ => ⟨rfl, rfl⟩, fun _ => rfl⟩

theorem inKeys_eq_true_iff {v : Value F} {ids : List Str} :
    inKeys v ids = .ok true ↔ ∃ s ∈ ids, v = .str s := by
  cases v with
  | str s =>
    refine ⟨fun h => ⟨s, of_decide_eq_true (Except.ok.inj h), rfl⟩, ?_⟩
    rintro ⟨_, hs, h⟩
    cases h
    exact congrArg Except.ok (decide_eq_true hs)
  | _ => exact ⟨(nomatch ·), fun ⟨_, _, h⟩ => nomatch h⟩

theorem checkEdges_mono {ids ids' : List Str} (hsub : ∀ nid ∈ ids, nid ∈ ids') {edges : Value F}
    (h : checkEdges ids edges = .ok ()) : checkEdges ids' edges = .ok () := by
  have hin : ∀ v : Value F, inKeys v ids = .ok true → inKeys v ids' = .ok true := by
    intro v hv
    obtain ⟨s, hs, rfl⟩ := inKeys_eq_true_iff.mp hv
    exact inKeys_eq_true_iff.mpr ⟨s, hsub s hs, rfl⟩
  cases edges with
  | none => rfl
  | list edges =>
    refine forM_eq_ok_iff.mpr fun e he => ?_
    have hedge := forM_eq_ok_iff.mp h e he
    cases e with
    | dict edge => exact checkEdge_dict_eq_ok_iff.mpr ((checkEdge_dict_eq_ok_iff.mp hedge).imp (hin _) (hin _))
    | _ => cases hedge
  | _ => cases h

/-- **A layout is accepted** when its nodes have coordinates and its edges end at nodes. -/
theorem validateLayoutPayload_iff {data : Dict F} : validateLayoutPayload fl (.dict data) = .ok () ↔
      ∃ nodes, getItem data "nodes" = .dict nodes ∧ nodes ≠ [] ∧ (∀ node ∈ nodes, checkNode fl node = .ok ()) ∧
        checkEdges (nodes.map Prod.fst) (getItem data "edges") = .ok () := by
  simp only [validateLayoutPayload]
  cases getItem data "nodes" with
  | dict nodes =>
    dsimp only
    by_cases hnil : nodes = []
    · rw [if_pos hnil]
      exact ⟨(nomatch ·), fun ⟨_, h, hne, _⟩ => absurd ((Value.dict.inj h).symm.trans hnil) hne⟩
    · rw [if_neg hnil]
      constructor
      · intro h
        obtain ⟨_, hnodes, hedges⟩ := bind_eq_ok h
        exact ⟨nodes, rfl, hnil, forM_eq_ok_iff.mp hnodes, hedges⟩
      · rintro ⟨_, h, -, hnodes, hedges⟩
        cases h
        rw [forM_eq_ok_iff.mpr hnodes]
        exact hedges
  | _ => exact ⟨(nomatch ·), fun ⟨_, h, _⟩ => nomatch h⟩

end Accepted

/-! ## The nodes that belong to every layout -/

section Complete

variable {F : Type} {fl : Floats F}

theorem pyFloat_int_eq_ok_iff {n : ℤ} : (∃ x, pyFloat fl (.int n) = .ok x) ↔ n.natAbs ≤ fl.bound := by
  simp only [pyFloat]
  split_ifs with h
  · exact ⟨fun _ => h, fun _ => ⟨_, rfl⟩⟩
  · exact ⟨(nomatch ·.choose_spec), fun hle => absurd hle h⟩

theorem checkPosition_eq_ok_iff {pos : Dict F} : checkPosition fl pos = .ok () ↔
      (∃ x, pyFloat fl (getItem pos "x") = .ok x) ∧ ∃ y, pyFloat fl (getItem pos "y") = .ok y := by
  constructor
  · intro h
    obtain ⟨x, hx, h⟩ := bind_eq_ok h
    obtain ⟨y, hy, -⟩ := bind_eq_ok h
    exact ⟨⟨x, hx⟩, y, hy⟩
  · rintro ⟨⟨x, hx⟩, y, hy⟩
    rw [checkPosition, hx, hy]
    rfl

theorem checkNode_position_iff {nid : Str} {x y : Value F} :
    checkNode fl (nid, position x y) = .ok () ↔ (∃ a, pyFloat fl x = .ok a) ∧ ∃ b, pyFloat fl y = .ok b := by
  have hx : getItem [(codes "x", x), (codes "y", y)] "x" = x := by rw [getItem, get?_cons, if_pos rfl, Option.getD_some]
  have hy : getItem [(codes "x", x), (codes "y", y)] "y" = y := by
    rw [getItem, get?_cons, if_neg (show codes "x" ≠ codes "y" by decide), get?_cons, if_pos rfl, Option.getD_some]
  rw [checkNode_eq_ok_iff]
  constructor
  · rintro ⟨_, hpos, h⟩
    cases hpos
    rw [checkPosition_eq_ok_iff, hx, hy] at h
    exact h
  · intro h
    refine ⟨_, rfl, ?_⟩
    rw [checkPosition_eq_ok_iff, hx, hy]
    exact h

theorem pyFloat_int_ok {n : ℤ} (h : n.natAbs ≤ 2 ^ 53) : ∃ x, pyFloat fl (.int n) = .ok x :=
  pyFloat_int_eq_ok_iff.mpr (h.trans fl.bound_ge)

def devicePositions (missing : List SystemDevice) : Dict F :=
  missing.zipIdx.map fun d => (d.1.id, position (.int (280 * (d.2 + 1))) (.int 240))

theorem placeDevices_eq_update (missing : List SystemDevice) (nodes : Dict F) :
    placeDevices missing nodes = update (devicePositions missing) nodes := by
  rw [placeDevices, update, devicePositions, List.foldl_map]

theorem keys_devicePositions (missing : List SystemDevice) :
    (devicePositions (F := F) missing).map Prod.fst = missing.map SystemDevice.id := by
  have h := congrArg (List.map SystemDevice.id) (List.zipIdx_map_fst 0 missing)
  rw [List.map_map] at h
  rw [devicePositions, List.map_map]
  exact h

theorem devicePositions_concat (missing : List SystemDevice) (d : SystemDevice) :
    devicePositions (F := F) (missing ++ [d]) =
      devicePositions missing ++ [(d.id, position (.int (280 * (missing.length + 1))) (.int 240))] := by
  rw [devicePositions, List.zipIdx_append, List.map_append, Nat.zero_add]
  rfl

variable {missing devices : List SystemDevice}

theorem checkNode_devicePositions (h : 280 * missing.length ≤ fl.bound) :
    ∀ node ∈ devicePositions missing, checkNode fl node = .ok () := by
  intro node hnode
  obtain ⟨⟨d, i⟩, hd, rfl⟩ := List.mem_map.mp hnode
  have hi : i < missing.length := by
    simpa only [Nat.add_zero] using List.snd_lt_of_mem_zipIdx hd
  exact checkNode_position_iff.mpr ⟨pyFloat_int_eq_ok_iff.mpr (by omega), pyFloat_int_ok (by decide)⟩

theorem exists_last_position (hne : missing ≠ []) (nodes : Dict F) :
    ∃ nid, get? (placeDevices missing nodes) nid = some (position (.int (280 * missing.length)) (.int 240)) := by
  obtain ⟨init, d, rfl⟩ := (List.eq_nil_or_concat' missing).resolve_left hne
  refine ⟨d.id, ?_⟩
  rw [placeDevices_eq_update, devicePositions_concat, update_concat, get?_setItem, if_pos rfl, List.length_append]
  rfl

theorem mapM_eq_ok {ε : Type} {α β : Type} {f : α → Except ε β} {xs : List α} (h : ∀ x ∈ xs, ∃ y, f x = .ok y) :
    ∃ ys, xs.mapM f = .ok ys := by
  induction xs with
  | nil => exact ⟨[], rfl⟩
  | cons x xs ih =>
    obtain ⟨y, hy⟩ := h x List.mem_cons_self
    obtain ⟨ys, hys⟩ := ih fun x hx => h x (List.mem_cons_of_mem _ hx)
    refine ⟨y :: ys, ?_⟩
    rw [List.mapM_cons, hy]
    show (xs.mapM f >>= fun ys => .ok (y :: ys)) = _
    rw [hys]
    rfl

variable {nodes nodes' : Dict F}

theorem nodeXs_eq_ok (h : ∀ node ∈ nodes, checkNode fl node = .ok ()) :
    ∃ xs, nodeXs fl nodes = .ok xs := by
  refine mapM_eq_ok fun v hv => ?_
  obtain ⟨node, hnode, hv⟩ := List.mem_filterMap.mp hv
  obtain ⟨pos, hpos, hcheck⟩ := checkNode_eq_ok_iff.mp (h node hnode)
  obtain ⟨⟨x, hx⟩, -⟩ := checkPosition_eq_ok_iff.mp hcheck
  rw [hpos] at hv
  cases hv
  rw [getItem] at hx
  cases hget : get? pos (codes "x") with
  | none =>
    rw [hget] at hx
    cases hx
  | some v =>
    rw [hget] at hx
    exact ⟨x, hx⟩

def withDevices (devices : List SystemDevice) (nodes : Dict F) : Dict F :=
  placeDevices (missingDevices devices (withInternet nodes)) (withInternet nodes)

theorem extends_withDevices (devices : List SystemDevice) (nodes : Dict F) :
    Extends nodes (withDevices devices nodes) := by
  have hinternet : Extends nodes (withInternet nodes) := extends_setDefault _ _ _
  refine hinternet.trans ?_
  rw [withDevices, placeDevices_eq_update]
  refine extends_update fun entry hentry hmem => ?_
  have hkey := List.mem_map_of_mem (f := Prod.fst) hentry
  rw [keys_devicePositions] at hkey
  obtain ⟨d, hd, hid⟩ := List.mem_map.mp hkey
  exact of_decide_eq_true (List.mem_filter.mp hd).2 (hid ▸ hmem)

theorem mem_keys_withDevices {nid : Str} : nid ∈ (withDevices devices nodes).map Prod.fst ↔
      nid ∈ nodes.map Prod.fst ∨ nid = internetNodeId ∨ nid ∈ devices.map SystemDevice.id := by
  rw [withDevices, placeDevices_eq_update, mem_keys_update, keys_devicePositions]
  have hinternet : nid ∈ (withInternet nodes).map Prod.fst ↔ nid = internetNodeId ∨ nid ∈ nodes.map Prod.fst :=
    mem_keys_setDefault
  constructor
  · rintro (hmissing | hnode)
    · obtain ⟨d, hd, hid⟩ := List.mem_map.mp hmissing
      exact .inr (.inr (List.mem_map.mpr ⟨d, (List.mem_filter.mp hd).1, hid⟩))
    · exact (hinternet.mp hnode).elim (.inr ∘ .inl) .inl
  · intro h
    by_cases hnode : nid ∈ (withInternet nodes).map Prod.fst
    · exact .inr hnode
    · rcases h with h | h | h
      · exact absurd (hinternet.mpr (.inr h)) hnode
      · exact absurd (hinternet.mpr (.inl h)) hnode
      · obtain ⟨d, hd, rfl⟩ := List.mem_map.mp h
        exact .inl (List.mem_map_of_mem (List.mem_filter.mpr ⟨hd, decide_eq_true hnode⟩))

theorem checkNode_withDevices
    (hcount : 280 * (missingDevices devices (withInternet nodes)).length ≤ fl.bound)
    (h : ∀ node ∈ nodes, checkNode fl node = .ok ()) :
    ∀ node ∈ withDevices devices nodes, checkNode fl node = .ok () := by
  intro node hnode
  rw [withDevices, placeDevices_eq_update] at hnode
  rcases mem_of_mem_update hnode with hnode | hnode
  · exact checkNode_devicePositions hcount node hnode
  · rcases mem_of_mem_setDefault hnode with rfl | hnode
    · exact checkNode_position_iff.mpr ⟨pyFloat_int_ok (by decide), pyFloat_int_ok (by decide)⟩
    · exact h node hnode

theorem completeNodes_cases (h : completeNodes fl devices nodes = .ok nodes') :
    nodes' = withDevices devices nodes ∧
        (noWorkstation devices = true → workstationNodeId ∈ (withDevices devices nodes).map Prod.fst) ∨
      (noWorkstation devices = true ∧ workstationNodeId ∉ (withDevices devices nodes).map Prod.fst) ∧
        ∃ x, nodes' = setItem workstationNodeId (position (.float x) (.int 0)) (withDevices devices nodes) := by
  simp only [completeNodes] at h
  split_ifs at h with hws
  · obtain ⟨xs, -, h⟩ := bind_eq_ok h
    exact .inr ⟨hws, _, (Except.ok.inj h).symm⟩
  · exact .inl ⟨(Except.ok.inj h).symm, fun hnone => by_contra fun hmem => hws ⟨hnone, hmem⟩⟩

/-- The nodes of the model, and the ones that belong to every layout. -/
structure Completed (data : Dict F) (devices : List SystemDevice) (nodes' : Dict F) : Prop where
  kept : Extends (withDevices devices (dictOr (getItem data "nodes"))) nodes'
  keys : ∀ nid, nid ∈ nodes'.map Prod.fst ↔ Placed data devices nid

theorem completed_of_completeNodes {data : Dict F}
    (h : completeNodes fl devices (dictOr (getItem data "nodes")) = .ok nodes') : Completed data devices nodes' := by
  rcases completeNodes_cases h with ⟨rfl, hws⟩ | ⟨hws, x, rfl⟩
  · refine ⟨.refl _, fun nid => mem_keys_withDevices.trans ?_⟩
    refine ⟨fun h => h.imp_right (Or.imp_right .inl), ?_⟩
    rintro (h | h | h | ⟨hnone, rfl⟩)
    exacts [.inl h, .inr (.inl h), .inr (.inr h), mem_keys_withDevices.mp (hws hnone)]
  · refine ⟨extends_setItem hws.2 _, fun nid => mem_keys_setItem.trans ?_⟩
    rw [mem_keys_withDevices, Placed, and_iff_right hws.1]
    tauto

theorem completeNodes_eq_ok
    (hcount : 280 * (missingDevices devices (withInternet nodes)).length ≤ fl.bound)
    (h : ∀ node ∈ nodes, checkNode fl node = .ok ()) :
    ∃ nodes', completeNodes fl devices nodes = .ok nodes' ∧ ∀ node ∈ nodes', checkNode fl node = .ok () := by
  have hdevices : ∀ node ∈ withDevices devices nodes, checkNode fl node = .ok () := checkNode_withDevices hcount h
  by_cases hws : noWorkstation devices = true ∧ workstationNodeId ∉ (withDevices devices nodes).map Prod.fst
  · obtain ⟨xs, hxs⟩ := nodeXs_eq_ok hdevices
    refine ⟨setItem workstationNodeId (position (.float (fl.add (pyMax fl xs) (fl.ofInt 280))) (.int 0))
      (withDevices devices nodes), ?_, fun node hnode => ?_⟩
    · rw [completeNodes]
      refine (if_pos hws).trans ?_
      rw [withDevices, withInternet] at hxs
      rw [hxs]
      rfl
    · rcases mem_of_mem_setItem hnode with rfl | hnode
      · exact checkNode_position_iff.mpr ⟨⟨_, rfl⟩, pyFloat_int_ok (by decide)⟩
      · exact hdevices node hnode
  · exact ⟨withDevices devices nodes, if_neg hws, hdevices⟩

end Complete

/-! ## The custom nodes -/

section Customs

variable {F : Type} {fl : Floats F}

theorem customId_eq_some_iff {c : Value F} {nid : Str} :
    customId c = some nid ↔ ∃ entries, c = .dict entries ∧ getItem entries "id" = .str nid := by
  cases c with
  | dict entries =>
    simp only [customId]
    cases h : getItem entries "id" with
    | str s =>
      refine ⟨fun hs => ⟨entries, rfl, by rw [h, Option.some.inj hs]⟩, ?_⟩
      rintro ⟨_, he, hs⟩
      cases he
      rw [h] at hs
      exact congrArg some (Value.str.inj hs)
    | _ =>
      refine ⟨(nomatch ·), ?_⟩
      rintro ⟨_, he, hs⟩
      cases he
      rw [h] at hs
      cases hs
  | _ => exact ⟨(nomatch ·), fun ⟨_, h, _⟩ => nomatch h⟩

theorem metaById_concat (customs : List (Value F)) (c : Value F) : metaById (customs ++ [c]) =
      match customId c with
      | some nid => setItem nid c (metaById customs)
      | none => metaById customs := by
  rw [metaById, List.foldl_append]
  rfl

variable {customs : List (Value F)}

theorem customId_of_get?_metaById {nid : Str} {c : Value F}
    (h : get? (metaById customs) nid = some c) : customId c = some nid := by
  induction customs using List.reverseRecOn with
  | nil => cases h
  | append_singleton customs c' ih =>
    rw [metaById_concat] at h
    cases hid : customId c' with
    | none =>
      rw [hid] at h
      exact ih h
    | some nid' =>
      rw [hid] at h
      rw [get?_setItem] at h
      split_ifs at h with hkey
      · rw [← hkey, ← Option.some.inj h, hid]
      · exact ih h

theorem isSome_get?_metaById_iff {nid : Str} :
    (get? (metaById customs) nid).isSome = true ↔ DeclaredIn customs nid := by
  induction customs using List.reverseRecOn with
  | nil => exact ⟨(nomatch ·), fun ⟨_, h, _⟩ => absurd h List.not_mem_nil⟩
  | append_singleton customs c ih =>
    have hsplit : DeclaredIn (customs ++ [c]) nid ↔ DeclaredIn customs nid ∨ customId c = some nid := by
      simp only [DeclaredIn, List.mem_append, List.mem_singleton, or_and_right, exists_or, exists_eq_left]
    rw [hsplit, ← ih, metaById_concat]
    cases customId c with
    | none => exact (or_iff_left (nomatch ·)).symm
    | some nid' =>
      rw [get?_setItem]
      split_ifs with hkey
      · exact ⟨fun _ => .inr (congrArg some hkey), fun _ => rfl⟩
      · exact (or_iff_left fun h => hkey (Option.some.inj h)).symm

theorem iterate_cases (fl : Floats F) (v : Value F) :
    (∃ cs, iterate fl v = .ok cs ∧ ∀ nid, DeclaredIn cs nid ↔ DeclaredIn (listOr v) nid) ∧ Iterable fl v ∨
      (∀ cs, iterate fl v ≠ .ok cs) ∧ ¬Iterable fl v := by
  have hnone : ∀ {cs : List (Value F)}, (∀ c ∈ cs, customId c = none) → ∀ nid, ¬DeclaredIn cs nid :=
    fun h nid ⟨c, hc, hid⟩ => nomatch (h c hc).symm.trans hid
  have hnil : ∀ nid, ¬DeclaredIn ([] : List (Value F)) nid := hnone fun _ hc => absurd hc List.not_mem_nil
  unfold iterate
  by_cases htruthy : truthy fl v = false
  · rw [if_pos htruthy]
    refine .inl ⟨⟨[], rfl, fun nid => ?_⟩, ?_⟩
    · cases v with
      | list xs =>
        cases xs with
        | nil => exact Iff.rfl
        | cons x xs => cases htruthy
      | _ => exact Iff.rfl
    · cases v <;> trivial
  · rw [if_neg htruthy]
    cases v with
    | list xs => exact .inl ⟨⟨xs, rfl, fun _ => Iff.rfl⟩, trivial⟩
    | str s =>
      refine .inl ⟨⟨_, rfl, fun nid => iff_of_false (hnone (fun c hc => ?_) nid) (hnil nid)⟩, trivial⟩
      obtain ⟨_, -, rfl⟩ := List.mem_map.mp hc
      rfl
    | dict entries =>
      refine .inl ⟨⟨_, rfl, fun nid => iff_of_false (hnone (fun c hc => ?_) nid) (hnil nid)⟩, trivial⟩
      obtain ⟨_, -, rfl⟩ := List.mem_map.mp hc
      rfl
    | _ => exact .inr ⟨fun _ => (nomatch ·), htruthy⟩

theorem declaredIn_cons {c : Value F} {nid : Str} :
    DeclaredIn (c :: customs) nid ↔ customId c = some nid ∨ DeclaredIn customs nid := by
  simp only [DeclaredIn, List.mem_cons, or_and_right, exists_or, exists_eq_left]

theorem allHashable_cons {c : Value F} : AllHashable (c :: customs) ↔
      (∀ entries, c = .dict entries → hashable (getItem entries "id") = true) ∧ AllHashable customs := by
  refine ⟨fun h => ⟨fun e he => h e (he ▸ List.mem_cons_self), fun e he => h e (List.mem_cons_of_mem _ he)⟩, ?_⟩
  rintro ⟨hc, h⟩ e he
  exact (List.mem_cons.mp he).elim (fun he => hc e he.symm) (h e)

theorem declaredIds_cons (c : Value F) (customs : List (Value F)) :
    ((∀ entries, c = .dict entries → hashable (getItem entries "id") = true) ∧
        declaredIds (c :: customs) = (declaredIds customs).map ((customId c).toList ++ ·)) ∨
      (¬∀ entries, c = .dict entries → hashable (getItem entries "id") = true) ∧
        declaredIds (c :: customs) = .error .typeError := by
  have hmap : ∀ r : Except PyError (List Str), r = r.map ([] ++ ·) := by
    intro r
    cases r <;> rfl
  cases c with
  | dict entries =>
    have hforall : (∀ e, Value.dict entries = .dict e → hashable (getItem e "id") = true) ↔
        hashable (getItem entries "id") = true :=
      ⟨fun h => h entries rfl, fun h e he => Value.dict.inj he ▸ h⟩
    rw [hforall]
    simp only [declaredIds, customId]
    cases getItem entries "id" with
    | str s => exact .inl ⟨rfl, rfl⟩
    | list xs => exact .inr ⟨Bool.false_ne_true, rfl⟩
    | dict es => exact .inr ⟨Bool.false_ne_true, rfl⟩
    | _ => exact .inl ⟨rfl, hmap _⟩
  | _ => exact .inl ⟨fun _ => (nomatch ·), hmap _⟩

theorem declaredIds_cases (customs : List (Value F)) :
    (∃ ids, declaredIds customs = .ok ids ∧ ∀ nid, nid ∈ ids ↔ DeclaredIn customs nid) ∧ AllHashable customs ∨
      (∀ ids, declaredIds customs ≠ .ok ids) ∧ ¬AllHashable customs := by
  induction customs with
  | nil =>
    exact .inl ⟨⟨[], rfl, fun nid => iff_of_false List.not_mem_nil fun ⟨_, h, _⟩ => absurd h List.not_mem_nil⟩,
      fun _ h => absurd h List.not_mem_nil⟩
  | cons c customs ih =>
    rw [allHashable_cons]
    rcases declaredIds_cons c customs with ⟨hc, hrec⟩ | ⟨hc, hrec⟩
    · rcases ih with ⟨⟨ids, hids, hmem⟩, hall⟩ | ⟨hids, hall⟩
      · refine .inl ⟨⟨(customId c).toList ++ ids, ?_, fun nid => ?_⟩, hc, hall⟩
        · rw [hrec, hids]
          rfl
        · rw [List.mem_append, Option.mem_toList, declaredIn_cons]
          exact or_congr_right (hmem nid)
      · refine .inr ⟨fun ids h => ?_, fun h => hall h.2⟩
        obtain ⟨ids', h, -⟩ := map_eq_ok (hrec.symm.trans h)
        exact hids ids' h
    · refine .inr ⟨fun ids h => ?_, fun h => hc h.1⟩
      rw [hrec] at h
      cases h

end Customs

/-! ## The old nodes -/

section Restore

variable {F : Type} {fl : Floats F} {metas : Dict F}

/-- What the loop over the old nodes preserves and adds. -/
structure Restores (st st' : Restoring F) : Prop where
  nodes : Extends st.nodes st'.nodes
  customs : st.customs <+: st'.customs
  new : ∀ c ∈ st'.customs, c ∈ st.customs ∨ ∃ nid, customId c = some nid ∧ nid ∉ st.nodes.map Prod.fst
  sound : (∀ nid ∈ st.declared, DeclaredIn st.customs nid) → ∀ nid ∈ st'.declared, DeclaredIn st'.customs nid
  placed : (∀ nid ∈ st.declared, DeclaredIn st.customs nid) → ∀ nid ∈ st'.nodes.map Prod.fst,
    nid ∈ st.nodes.map Prod.fst ∨ DeclaredIn st'.customs nid

theorem DeclaredIn.mono {customs : List (Value F)} {nid : Str} {customs' : List (Value F)} (h : customs <+: customs')
    (hnid : DeclaredIn customs nid) : DeclaredIn customs' nid := by
  obtain ⟨c, hc, hid⟩ := hnid
  exact ⟨c, h.subset hc, hid⟩

theorem Restores.refl (st : Restoring F) : Restores st st where
  nodes := .refl _
  customs := List.prefix_rfl
  new := fun _ => .inl
  sound := id
  placed := fun _ _ => .inl

variable {st st' : Restoring F}

theorem Restores.trans {st'' : Restoring F} (h : Restores st st') (h' : Restores st' st'') :
    Restores st st'' where
  nodes := h.nodes.trans h'.nodes
  customs := h.customs.trans h'.customs
  new := by
    intro c hc
    rcases h'.new c hc with hc | ⟨nid, hid, hnot⟩
    · exact h.new c hc
    · exact .inr ⟨nid, hid, fun hmem => hnot (h.nodes.mem_keys hmem)⟩
  sound := fun hs => h'.sound (h.sound hs)
  placed := by
    intro hs nid hnid
    rcases h'.placed (h.sound hs) nid hnid with hnid | hnid
    · exact (h.placed hs nid hnid).imp_right (.mono h'.customs)
    · exact .inr hnid

theorem restoreNode_cases (metas : Dict F) (st : Restoring F) (node : Str × Value F) :
    restoreNode metas st node = st ∧
        ((get? metas node.1).isSome = true → (∃ pos, node.2 = .dict pos) → node.1 ∈ st.nodes.map Prod.fst) ∨
      ∃ c pos, get? metas node.1 = some c ∧ node.2 = .dict pos ∧ node.1 ∉ st.nodes.map Prod.fst ∧
        restoreNode metas st node =
          { nodes := setItem node.1 node.2 st.nodes
            customs := if node.1 ∈ st.declared then st.customs else st.customs ++ [c]
            declared := if node.1 ∈ st.declared then st.declared else node.1 :: st.declared } := by
  obtain ⟨nid, v⟩ := node
  unfold restoreNode
  cases hmeta : get? metas nid with
  | none => exact .inl ⟨rfl, (nomatch ·)⟩
  | some c =>
    cases v with
    | dict pos =>
      dsimp only
      by_cases hmem : nid ∈ st.nodes.map Prod.fst
      · rw [if_pos hmem]
        exact .inl ⟨rfl, fun _ _ => hmem⟩
      · rw [if_neg hmem]
        exact .inr ⟨c, pos, rfl, rfl, hmem, rfl⟩
    | _ => exact .inl ⟨rfl, fun _ h => nomatch h.choose_spec⟩

theorem restores_restoreNode (hmetas : ∀ nid c, get? metas nid = some c → customId c = some nid) (st : Restoring F)
    (node : Str × Value F) : Restores st (restoreNode metas st node) := by
  rcases restoreNode_cases metas st node with ⟨h, -⟩ | ⟨c, pos, hc, -, hnot, h⟩
  · rw [h]
    exact .refl st
  · have hid := hmetas _ c hc
    have hdeclared : DeclaredIn (st.customs ++ [c]) node.1 :=
      ⟨c, List.mem_append_right _ (List.mem_singleton_self c), hid⟩
    rw [h]
    refine ⟨extends_setItem hnot _, ?_, ?_, ?_, ?_⟩
    · dsimp only
      split_ifs
      exacts [List.prefix_rfl, List.prefix_append _ _]
    · dsimp only
      split_ifs
      · exact fun _ => .inl
      · intro c' hc'
        rcases List.mem_append.mp hc' with hc' | hc'
        · exact .inl hc'
        · exact .inr ⟨node.1, List.mem_singleton.mp hc' ▸ hid, hnot⟩
    · intro hs nid
      dsimp only
      split_ifs
      · exact hs nid
      · intro hnid
        rcases List.mem_cons.mp hnid with rfl | hnid
        · exact hdeclared
        · exact (hs nid hnid).mono (List.prefix_append _ _)
    · intro hs nid hnid
      rcases mem_keys_setItem.mp hnid with rfl | hnid
      · dsimp only
        split_ifs with hmem
        exacts [.inr (hs _ hmem), .inr hdeclared]
      · exact .inl hnid

theorem restores_foldl (hmetas : ∀ nid c, get? metas nid = some c → customId c = some nid) (oldNodes : Dict F)
    (st : Restoring F) : Restores st (oldNodes.foldl (restoreNode metas) st) := by
  induction oldNodes generalizing st with
  | nil => exact .refl st
  | cons node oldNodes ih => exact (restores_restoreNode hmetas st node).trans (ih _)

theorem get?_restoreNode (metas : Dict F) {node : Str × Value F} (hdict : ∃ pos, node.2 = .dict pos)
    (st : Restoring F) (nid : Str) :
    get? (restoreNode metas st node).nodes nid =
      (get? st.nodes nid).or (if (get? metas nid).isSome = true ∧ node.1 = nid then some node.2 else none) := by
  rcases restoreNode_cases metas st node with ⟨h, hmem⟩ | ⟨c, pos, hc, -, hnot, h⟩
  · rw [h]
    split_ifs with hif
    · obtain ⟨hmeta, rfl⟩ := hif
      rw [or_get?_eq_get? (hmem hmeta hdict)]
    · rw [Option.or_none]
  · rw [h, get?_setItem]
    by_cases hkey : node.1 = nid
    · subst hkey
      rw [if_pos rfl, if_pos ⟨by rw [hc]; rfl, rfl⟩, or_get?_eq_other hnot]
    · rw [if_neg hkey, if_neg (fun hif => hkey hif.2), Option.or_none]

/-- **The nodes after the loop**: an old node with a declaration comes back unless there is one of that name. -/
theorem get?_restored (metas : Dict F) {oldNodes : Dict F} (hdict : ∀ node ∈ oldNodes, ∃ pos, node.2 = .dict pos)
    (st : Restoring F)
    (nid : Str) : get? (oldNodes.foldl (restoreNode metas) st).nodes nid =
      (get? st.nodes nid).or (if (get? metas nid).isSome = true then get? oldNodes nid else none) := by
  induction oldNodes generalizing st with
  | nil =>
    rw [show get? ([] : Dict F) nid = none from rfl, ite_self, Option.or_none]
    rfl
  | cons node oldNodes ih =>
    rw [List.foldl_cons, ih (fun n hn => hdict n (List.mem_cons_of_mem _ hn)),
      get?_restoreNode metas (hdict node List.mem_cons_self), Option.or_assoc, get?_cons]
    split_ifs <;> first | rfl | tauto

theorem foldl_restoreNode_of_mem {oldNodes : Dict F}
    (h : ∀ node ∈ oldNodes, (get? metas node.1).isSome = true → node.1 ∈ st.nodes.map Prod.fst) :
    oldNodes.foldl (restoreNode metas) st = st := by
  induction oldNodes with
  | nil => rfl
  | cons node oldNodes ih =>
    rw [List.foldl_cons]
    rcases restoreNode_cases metas st node with ⟨hst, -⟩ | ⟨c, pos, hc, -, hnot, -⟩
    · rw [hst]
      exact ih fun n hn => h n (List.mem_cons_of_mem _ hn)
    · exact absurd (h node List.mem_cons_self (by rw [hc]; rfl)) hnot

theorem checkNode_restored {oldNodes : Dict F}
    (hdict : ∀ node ∈ oldNodes, ∃ pos, node.2 = .dict pos)
    (hrange : ∀ nid pos, get? oldNodes nid = some (.dict pos) → (get? metas nid).isSome = true →
      nid ∉ st.nodes.map Prod.fst → checkPosition fl pos = .ok ())
    (h : ∀ node ∈ st.nodes, checkNode fl node = .ok ()) :
    ∀ node ∈ (oldNodes.foldl (restoreNode metas) st).nodes, checkNode fl node = .ok () := by
  induction oldNodes generalizing st with
  | nil => exact h
  | cons node oldNodes ih =>
    have hstep := get?_restoreNode metas (hdict node List.mem_cons_self) st
    refine ih (fun n hn => hdict n (List.mem_cons_of_mem _ hn)) ?_ ?_
    · intro nid pos hold hmeta hnot
      rw [← get?_eq_none_iff, hstep, Option.or_eq_none_iff] at hnot
      have hne : node.1 ≠ nid := by
        intro hkey
        rw [if_pos ⟨hmeta, hkey⟩] at hnot
        cases hnot.2
      refine hrange nid pos ?_ hmeta (get?_eq_none_iff.mp hnot.1)
      rw [get?_cons, if_neg hne, hold]
    · rcases restoreNode_cases metas st node with ⟨hst, -⟩ | ⟨c, pos, hc, hpos, hnot, hst⟩
      · rw [hst]
        exact h
      · rw [hst]
        intro n hn
        rcases mem_of_mem_setItem hn with rfl | hn
        · refine checkNode_eq_ok_iff.mpr ⟨pos, hpos, hrange node.1 pos ?_ (by rw [hc]; rfl) hnot⟩
          rw [get?_cons, if_pos rfl, hpos]
        · exact h n hn

end Restore

/-! ## The repair -/

section Repair

variable {F : Type} {fl : Floats F}

/-- The loop over the nodes of the previous layout. -/
def restored (oldCustoms customs : List (Value F)) (ids : List Str) (oldNodes nodes : Dict F) : Restoring F :=
  oldNodes.foldl (restoreNode (metaById oldCustoms)) ⟨nodes, customs, ids⟩

theorem restores_restored (oldCustoms customs : List (Value F)) (ids : List Str) (oldNodes nodes : Dict F) :
    Restores ⟨nodes, customs, ids⟩ (restored oldCustoms customs ids oldNodes nodes) :=
  restores_foldl (fun _ _ => customId_of_get?_metaById) oldNodes _

/-- The layout with what was restored. -/
def merged (old data : Dict F) (st : Restoring F) : Dict F :=
  let data := setItem (codes "customNodes") (.list st.customs) (setItem (codes "nodes") (.dict st.nodes) data)
  match getItem old "notes" with
  | .dict oldNotes => setItem (codes "notes") (.dict (restoreNotes oldNotes (dictOr (getItem data "notes")))) data
  | _ => data

variable {old data oldNodes nodes data' nodes' layout : Dict F}

theorem restore_eq_merged {oldCustoms : List (Value F)} {ids : List Str}
    (hold : iterate fl (getItem old "customNodes") = .ok oldCustoms)
    (hids : declaredIds (listOr (getItem data "customNodes")) = .ok ids) (oldNodes nodes : Dict F) :
    restore fl old oldNodes data nodes =
      .ok (merged old data (restored oldCustoms (listOr (getItem data "customNodes")) ids oldNodes nodes)) := by
  rw [restore, hold]
  show (declaredIds (listOr (getItem data "customNodes")) >>= _) = _
  rw [hids]
  unfold merged restored
  show (match getItem old "notes" with | .dict oldNotes => _ | _ => _) = _
  cases getItem old "notes" <;> rfl

theorem restore_cases (h : restore fl old oldNodes data nodes = .ok data') :
    ∃ oldCustoms ids, iterate fl (getItem old "customNodes") = .ok oldCustoms ∧
      declaredIds (listOr (getItem data "customNodes")) = .ok ids ∧
      data' = merged old data (restored oldCustoms (listOr (getItem data "customNodes")) ids oldNodes nodes) := by
  obtain ⟨oldCustoms, hold, h'⟩ := bind_eq_ok h
  obtain ⟨ids, hids, -⟩ := bind_eq_ok h'
  exact ⟨oldCustoms, ids, hold, hids, Except.ok.inj (h.symm.trans (restore_eq_merged hold hids oldNodes nodes))⟩

theorem getItem_merged_nodes (old data : Dict F) (st : Restoring F) :
    getItem (merged old data st) "nodes" = .dict st.nodes := by
  have hbase : getItem (setItem (codes "customNodes") (.list st.customs) (setItem (codes "nodes") (.dict st.nodes) data))
      "nodes" = .dict st.nodes := by
    rw [getItem_setItem_ne (by decide), getItem_setItem_self]
  unfold merged
  split
  · rw [getItem_setItem_ne (by decide), hbase]
  · exact hbase

theorem getItem_merged_customNodes (old data : Dict F) (st : Restoring F) :
    getItem (merged old data st) "customNodes" = .list st.customs := by
  unfold merged
  split
  · rw [getItem_setItem_ne (by decide), getItem_setItem_self]
  · rw [getItem_setItem_self]

theorem getItem_merged_edges (old data : Dict F) (st : Restoring F) :
    getItem (merged old data st) "edges" = getItem data "edges" := by
  unfold merged
  split
  · rw [getItem_setItem_ne (by decide), getItem_setItem_ne (by decide), getItem_setItem_ne (by decide)]
  · rw [getItem_setItem_ne (by decide), getItem_setItem_ne (by decide)]

theorem getItem_merged_notes {oldNotes : Dict F} (h : getItem old "notes" = .dict oldNotes) (data : Dict F)
    (st : Restoring F) :
    getItem (merged old data st) "notes" = .dict (restoreNotes oldNotes (dictOr (getItem data "notes"))) := by
  unfold merged
  rw [h]
  dsimp only
  rw [getItem_setItem_self, getItem_setItem_ne (by decide), getItem_setItem_ne (by decide)]

theorem get?_merged_notes (old data : Dict F) (st : Restoring F) (nid : Str) :
    get? (dictOr (getItem (merged old data st) "notes")) nid =
      (get? (dictOr (getItem data "notes")) nid).or (get? (dictOr (getItem old "notes")) nid) := by
  cases hold : getItem old "notes" with
  | dict oldNotes =>
    rw [getItem_merged_notes hold]
    exact get?_restoreNotes _ _ _
  | _ =>
    unfold merged
    rw [hold]
    dsimp only
    rw [getItem_setItem_ne (by decide), getItem_setItem_ne (by decide)]
    exact Option.or_none.symm

theorem merged_eq_self {st : Restoring F} (hnodes : getItem data "nodes" = .dict st.nodes)
    (hcustoms : getItem data "customNodes" = .list st.customs)
    (hnotes : ∀ oldNotes, getItem old "notes" = .dict oldNotes → ∃ notes, getItem data "notes" = .dict notes ∧
      ∀ nid ∈ oldNotes.map Prod.fst, nid ∈ notes.map Prod.fst) : merged old data st = data := by
  unfold merged
  dsimp only
  rw [setItem_of_getItem hnodes (nomatch ·), setItem_of_getItem hcustoms (nomatch ·)]
  cases hold : getItem old "notes" with
  | dict oldNotes =>
    obtain ⟨notes, hnotes, hsub⟩ := hnotes oldNotes hold
    dsimp only
    rw [hnotes, dictOr, restoreNotes_of_subset hsub, setItem_of_getItem hnotes (nomatch ·)]
  | _ => rfl

theorem completeNodes_of_placed {devices : List SystemDevice}
    (hinternet : internetNodeId ∈ nodes.map Prod.fst) (hdevices : ∀ d ∈ devices, d.id ∈ nodes.map Prod.fst)
    (hws : noWorkstation devices = true → workstationNodeId ∈ nodes.map Prod.fst) :
    completeNodes fl devices nodes = .ok nodes := by
  have hmissing : missingDevices devices nodes = [] :=
    List.filter_eq_nil_iff.mpr fun d hd h => of_decide_eq_true h (hdevices d hd)
  rw [completeNodes, setDefault, if_pos hinternet, hmissing, show placeDevices [] nodes = nodes from rfl]
  exact if_neg fun h => h.2 (hws h.1)

theorem count_of_checkNode {devices : List SystemDevice}
    (hext : Extends (withDevices devices nodes) nodes') (h : ∀ node ∈ nodes', checkNode fl node = .ok ()) :
    280 * (missingDevices devices (withInternet nodes)).length ≤ fl.bound := by
  by_cases hne : missingDevices devices (withInternet nodes) = []
  · rw [hne]
    exact Nat.zero_le _
  · obtain ⟨nid, hnid⟩ := exists_last_position hne (withInternet nodes)
    obtain ⟨hx, -⟩ := checkNode_position_iff.mp (h _ (mem_of_get? (hext _ _ hnid)))
    have := pyFloat_int_eq_ok_iff.mp hx
    omega

theorem validate_of_extends (hvalid : validateLayoutPayload fl (.dict data) = .ok ())
    (hnodes' : getItem data' "nodes" = .dict nodes') (hext : Extends (dictOr (getItem data "nodes")) nodes')
    (hcheck : ∀ node ∈ nodes', checkNode fl node = .ok ()) (hedges : getItem data' "edges" = getItem data "edges") :
    validateLayoutPayload fl (.dict data') = .ok () := by
  obtain ⟨nodes, hnodes, hne, -, hedge⟩ := validateLayoutPayload_iff.mp hvalid
  rw [hnodes, dictOr] at hext
  refine validateLayoutPayload_iff.mpr ⟨nodes', hnodes', ?_, hcheck, ?_⟩
  · rintro rfl
    obtain ⟨node, hnode⟩ := List.exists_mem_of_ne_nil nodes hne
    exact List.not_mem_nil (hext.mem_keys (List.mem_map_of_mem hnode))
  · rw [hedges]
    exact checkEdges_mono (fun _ => hext.mem_keys) hedge

theorem checkNode_of_validate (h : validateLayoutPayload fl (.dict data) = .ok ()) :
    ∀ node ∈ dictOr (getItem data "nodes"), checkNode fl node = .ok () := by
  obtain ⟨nodes, hnodes, -, hcheck, -⟩ := validateLayoutPayload_iff.mp h
  rw [hnodes]
  exact hcheck

theorem completeNodes_again {devices : List SystemDevice}
    (h : ∀ nid, Placed data devices nid → nid ∈ nodes.map Prod.fst) : completeNodes fl devices nodes = .ok nodes :=
  completeNodes_of_placed (h _ (.inr (.inl rfl))) (fun _ hd => h _ (.inr (.inr (.inl (List.mem_map_of_mem hd)))))
    fun hws => h _ (.inr (.inr (.inr ⟨hws, rfl⟩)))

/-! ### Without nodes of a previous layout -/

/-- No node of the previous layout is looked at. -/
def Skipped (old : Option (Dict F)) : Prop :=
  ∀ layout, old = some layout → ∀ oldNodes, getItem layout "nodes" ≠ .dict oldNodes

theorem selfHealLayout_skipped {old : Option (Dict F)} (hskip : Skipped old) (data : Dict F)
    (devices : List SystemDevice) : selfHealLayout fl data devices old =
      (completeNodes fl devices (dictOr (getItem data "nodes"))).map fun nodes =>
        setItem (codes "nodes") (.dict nodes) data := by
  rw [selfHealLayout]
  cases completeNodes fl devices (dictOr (getItem data "nodes")) with
  | error e => rfl
  | ok nodes =>
    cases old with
    | none => rfl
    | some layout =>
      have hnot := hskip layout rfl
      show (match getItem layout "nodes" with | .dict oldNodes => _ | _ => _) = _
      cases h : getItem layout "nodes" with
      | dict oldNodes => exact absurd h (hnot oldNodes)
      | _ => rfl

theorem healed_iff_of_skipped {devices : List SystemDevice} {old : Option (Dict F)}
    (hvalid : validateLayoutPayload fl (.dict data) = .ok ()) (hskip : Skipped old) :
    (∃ data', selfHealLayout fl data devices old = .ok data' ∧ Healed fl data devices old data') ↔
      280 * (missingDevices devices (withInternet (dictOr (getItem data "nodes")))).length ≤ fl.bound ∧
        ∀ layout, old = some layout → ∀ nid ∈ (dictOr (getItem layout "notes")).map Prod.fst,
          nid ∈ (dictOr (getItem data "notes")).map Prod.fst := by
  have hnotes : ∀ nodes', getItem (setItem (codes "nodes") (.dict nodes') data) "notes" = getItem data "notes" :=
    fun nodes' => getItem_setItem_ne (by decide) _ _
  constructor
  · rintro ⟨data', hheal, healed⟩
    rw [selfHealLayout_skipped hskip] at hheal
    obtain ⟨nodes', hcomplete, rfl⟩ := map_eq_ok hheal
    refine ⟨?_, fun layout hold nid hnid => ?_⟩
    · have hcheck := checkNode_of_validate healed.valid
      rw [getItem_setItem_self] at hcheck
      exact count_of_checkNode (completed_of_completeNodes hcomplete).kept hcheck
    · obtain ⟨note, hnote⟩ := mem_keys_iff.mp hnid
      have := healed.oldNote layout hold nid note hnote
      rw [hnotes] at this
      exact mem_keys_iff.mpr ⟨_, this⟩
  · rintro ⟨hcount, hsub⟩
    obtain ⟨nodes', hcomplete, hcheck⟩ := completeNodes_eq_ok hcount (checkNode_of_validate hvalid)
    have completed := completed_of_completeNodes hcomplete
    have hkept := (extends_withDevices devices (dictOr (getItem data "nodes"))).trans completed.kept
    have hplaced : ∀ nid, Placed data devices nid → nid ∈ nodes'.map Prod.fst := fun nid => (completed.keys nid).mpr
    refine ⟨setItem (codes "nodes") (.dict nodes') data, ?_, ?_⟩
    · rw [selfHealLayout_skipped hskip, hcomplete]
      rfl
    · have hnodes : getItem (setItem (codes "nodes") (.dict nodes') data) "nodes" = .dict nodes' :=
        getItem_setItem_self _ _ _
      have hedges : getItem (setItem (codes "nodes") (.dict nodes') data) "edges" = getItem data "edges" :=
        getItem_setItem_ne (by decide) _ _
      have hcustoms : getItem (setItem (codes "nodes") (.dict nodes') data) "customNodes" = getItem data "customNodes" :=
        getItem_setItem_ne (by decide) _ _
      constructor
      · exact validate_of_extends hvalid hnodes hkept hcheck hedges
      · rw [hnodes]
        exact hplaced
      · intro layout hold nid hnid
        have hnot := hskip layout hold
        cases h : getItem layout "nodes" with
        | dict oldNodes => exact absurd h (hnot oldNodes)
        | _ =>
          rw [h] at hnid
          exact absurd hnid List.not_mem_nil
      · intro layout hold nid note hnote
        obtain ⟨own, hown⟩ := mem_keys_iff.mp (hsub layout hold nid (mem_keys_iff.mpr ⟨note, hnote⟩))
        rw [hnotes, hown]
        rfl
      · rw [hnodes]
        exact hkept
      · exact hedges
      · rw [hcustoms]
      · rw [hnotes]
        exact .refl _
      · rw [selfHealLayout_skipped hskip, hnodes, dictOr, completeNodes_again hplaced]
        exact congrArg Except.ok (setItem_of_getItem hnodes (nomatch ·))

/-! ### With nodes of a previous layout -/

theorem selfHealLayout_restoring (h : getItem layout "nodes" = .dict oldNodes) (data : Dict F)
    (devices : List SystemDevice) : selfHealLayout fl data devices (some layout) =
      completeNodes fl devices (dictOr (getItem data "nodes")) >>= restore fl layout oldNodes data := by
  rw [selfHealLayout]
  refine congrArg _ (funext fun nodes => ?_)
  show (match getItem layout "nodes" with | .dict oldNodes => _ | _ => _) = _
  rw [h]

theorem Restores.allHashable {st st' : Restoring F} (h : Restores st st') (hst : AllHashable st.customs) :
    AllHashable st'.customs := by
  intro entries hentries
  rcases h.new _ hentries with hentries | ⟨nid, hid, -⟩
  · exact hst entries hentries
  · obtain ⟨_, he, hid⟩ := customId_eq_some_iff.mp hid
    cases he
    rw [hid]
    rfl

section Restoring

variable {data layout oldNodes nodes' : Dict F} {devices : List SystemDevice} {oldCustoms : List (Value F)}
  {ids : List Str}

theorem restorable_of_healed (hnodes : getItem layout "nodes" = .dict oldNodes)
    (hdict : ∀ node ∈ oldNodes, ∃ pos, node.2 = .dict pos) (completed : Completed data devices nodes')
    (hiter : ∀ nid, DeclaredIn oldCustoms nid ↔ Declared layout nid)
    (hvalid : validateLayoutPayload fl (.dict (merged layout data
      (restored oldCustoms (listOr (getItem data "customNodes")) ids oldNodes nodes'))) = .ok ())
    (hdeclared : ∀ nid ∈ oldNodes.map Prod.fst, Declared layout nid → Declared (merged layout data
      (restored oldCustoms (listOr (getItem data "customNodes")) ids oldNodes nodes')) nid) :
    (∀ nid ∈ (dictOr (getItem layout "nodes")).map Prod.fst, Declared layout nid → Placed data devices nid →
        Declared data nid) ∧
      ∀ nid pos, get? (dictOr (getItem layout "nodes")) nid = some (.dict pos) → Declared layout nid →
        ¬Placed data devices nid → checkPosition fl pos = .ok () := by
  have hr := restores_restored oldCustoms (listOr (getItem data "customNodes")) ids oldNodes nodes'
  rw [hnodes]
  constructor
  · intro nid hnid hdecl hplaced
    obtain ⟨c, hc, hid⟩ := hdeclared nid hnid hdecl
    rw [getItem_merged_customNodes] at hc
    rcases hr.new c hc with hc | ⟨nid', hid', hnot⟩
    · exact ⟨c, hc, hid⟩
    · rw [Option.some.inj (hid'.symm.trans hid)] at hnot
      exact absurd ((completed.keys nid).mpr hplaced) hnot
  · intro nid pos hold hdecl hplaced
    have hcheck := checkNode_of_validate hvalid
    rw [getItem_merged_nodes] at hcheck
    have hget := get?_restored (metaById oldCustoms) hdict ⟨nodes', listOr (getItem data "customNodes"), ids⟩ nid
    rw [or_get?_eq_other (fun hmem => hplaced ((completed.keys nid).mp hmem)),
      if_pos (isSome_get?_metaById_iff.mpr ((hiter nid).mpr hdecl)), show get? oldNodes nid = _ from hold] at hget
    obtain ⟨_, hpos, hok⟩ := checkNode_eq_ok_iff.mp (hcheck _ (mem_of_get? hget))
    cases hpos
    exact hok

theorem restore_merged {st : Restoring F} (hold : iterate fl (getItem layout "customNodes") = .ok oldCustoms)
    (hall : AllHashable st.customs)
    (hback : ∀ node ∈ oldNodes, (get? (metaById oldCustoms) node.1).isSome = true → node.1 ∈ st.nodes.map Prod.fst) :
    restore fl layout oldNodes (merged layout data st) st.nodes = .ok (merged layout data st) := by
  have hcustoms := getItem_merged_customNodes layout data st
  rcases declaredIds_cases st.customs with ⟨⟨ids', hids', -⟩, -⟩ | ⟨-, hnot⟩
  · have hagain := restore_eq_merged hold (show declaredIds (listOr (getItem (merged layout data st) "customNodes")) = _ by
      rw [hcustoms]
      exact hids') oldNodes st.nodes
    rw [hcustoms, restored, foldl_restoreNode_of_mem (by exact hback)] at hagain
    rw [hagain]
    refine congrArg Except.ok (merged_eq_self (getItem_merged_nodes _ _ _) hcustoms fun oldNotes hnotes => ?_)
    refine ⟨_, getItem_merged_notes hnotes data st, fun nid hnid => ?_⟩
    obtain ⟨note, hnote⟩ := mem_keys_iff.mp hnid
    rw [mem_keys_iff, get?_restoreNotes, hnote]
    cases get? (dictOr (getItem data "notes")) nid
    exacts [⟨_, rfl⟩, ⟨_, rfl⟩]
  · exact absurd hall hnot

theorem healed_of_restorable (hvalid : validateLayoutPayload fl (.dict data) = .ok ())
    (hnodes : getItem layout "nodes" = .dict oldNodes) (hdict : ∀ node ∈ oldNodes, ∃ pos, node.2 = .dict pos)
    (completed : Completed data devices nodes') (hcheck : ∀ node ∈ nodes', checkNode fl node = .ok ())
    (hold : iterate fl (getItem layout "customNodes") = .ok oldCustoms)
    (hiter : ∀ nid, DeclaredIn oldCustoms nid ↔ Declared layout nid)
    (hids : ∀ nid, nid ∈ ids ↔ Declared data nid) (h : Restorable fl data devices layout) :
    Healed fl data devices (some layout)
      (merged layout data (restored oldCustoms (listOr (getItem data "customNodes")) ids oldNodes nodes')) := by
  have hr := restores_restored oldCustoms (listOr (getItem data "customNodes")) ids oldNodes nodes'
  have hkept := ((extends_withDevices devices (dictOr (getItem data "nodes"))).trans completed.kept).trans hr.nodes
  have hplaced : ∀ nid, Placed data devices nid → nid ∈
      (restored oldCustoms (listOr (getItem data "customNodes")) ids oldNodes nodes').nodes.map Prod.fst :=
    fun nid hnid => hr.nodes.mem_keys ((completed.keys nid).mpr hnid)
  have hmeta : ∀ nid, (get? (metaById oldCustoms) nid).isSome = true ↔ Declared layout nid :=
    fun nid => isSome_get?_metaById_iff.trans (hiter nid)
  have hback : ∀ nid ∈ oldNodes.map Prod.fst, Declared layout nid → nid ∈
      (restored oldCustoms (listOr (getItem data "customNodes")) ids oldNodes nodes').nodes.map Prod.fst := by
    intro nid hnid hdecl
    by_cases hmem : nid ∈ nodes'.map Prod.fst
    · exact hr.nodes.mem_keys hmem
    · obtain ⟨v, hv⟩ := mem_keys_iff.mp hnid
      refine mem_keys_iff.mpr ⟨v, (get?_restored _ hdict _ nid).trans ?_⟩
      rw [or_get?_eq_other hmem, if_pos ((hmeta nid).mpr hdecl), hv]
  constructor
  · refine validate_of_extends hvalid (getItem_merged_nodes _ _ _) hkept ?_ (getItem_merged_edges _ _ _)
    refine checkNode_restored hdict (fun nid pos hget hm hnot => ?_) hcheck
    refine h.range nid pos ?_ ((hmeta nid).mp hm) fun hp => hnot ((completed.keys nid).mpr hp)
    rw [hnodes]
    exact hget
  · rw [getItem_merged_nodes]
    exact hplaced
  · rintro _ ⟨⟩ nid hnid hdecl
    have hnid' := hnid
    rw [hnodes] at hnid'
    rw [Declared, getItem_merged_nodes, getItem_merged_customNodes]
    refine ⟨hback nid hnid' hdecl, ?_⟩
    by_cases hp : Placed data devices nid
    · exact (h.declared nid hnid hdecl hp).mono hr.customs
    · exact (hr.placed (fun n => (hids n).mp) nid (hback nid hnid' hdecl)).resolve_left
        fun hmem => hp ((completed.keys nid).mp hmem)
  · rintro _ ⟨⟩ nid note hnote
    rw [get?_merged_notes, hnote]
    cases get? (dictOr (getItem data "notes")) nid <;> rfl
  · rw [getItem_merged_nodes]
    exact hkept
  · exact getItem_merged_edges _ _ _
  · rw [getItem_merged_customNodes]
    exact hr.customs
  · intro nid note hnote
    rw [get?_merged_notes, hnote, Option.some_or]
  · rw [selfHealLayout_restoring hnodes, getItem_merged_nodes, dictOr, completeNodes_again hplaced]
    exact restore_merged hold (hr.allHashable h.hashable) fun node hnode hm =>
      hback node.1 (List.mem_map_of_mem hnode) ((hmeta node.1).mp hm)

end Restoring

theorem healed_iff_of_restoring {devices : List SystemDevice}
    (hvalid : validateLayoutPayload fl (.dict data) = .ok ()) (hnodes : getItem layout "nodes" = .dict oldNodes)
    (hdict : ∀ node ∈ oldNodes, ∃ pos, node.2 = .dict pos) :
    (∃ data', selfHealLayout fl data devices (some layout) = .ok data' ∧
        Healed fl data devices (some layout) data') ↔
      280 * (missingDevices devices (withInternet (dictOr (getItem data "nodes")))).length ≤ fl.bound ∧
        Restorable fl data devices layout := by
  constructor
  · rintro ⟨data', hheal, healed⟩
    rw [selfHealLayout_restoring hnodes] at hheal
    obtain ⟨nodes', hcomplete, hrestore⟩ := bind_eq_ok hheal
    obtain ⟨oldCustoms, ids, hold, hids, rfl⟩ := restore_cases hrestore
    have completed := completed_of_completeNodes hcomplete
    rcases iterate_cases fl (getItem layout "customNodes") with ⟨⟨cs, hcs, hiter⟩, hiterable⟩ | ⟨hnot, -⟩
    · rcases declaredIds_cases (listOr (getItem data "customNodes")) with ⟨-, hall⟩ | ⟨hnot, -⟩
      · cases hold.symm.trans hcs
        obtain ⟨hdeclared, hrange⟩ := restorable_of_healed hnodes hdict completed hiter healed.valid
          fun nid hnid hdecl => (healed.oldNode layout rfl nid (by rw [hnodes]; exact hnid) hdecl).2
        refine ⟨?_, hiterable, hall, hdeclared, hrange⟩
        have hcheck := checkNode_of_validate healed.valid
        rw [getItem_merged_nodes] at hcheck
        exact count_of_checkNode (completed.kept.trans (restores_restored oldCustoms _ ids oldNodes nodes').nodes) hcheck
      · exact absurd hids (hnot ids)
    · exact absurd hold (hnot oldCustoms)
  · rintro ⟨hcount, h⟩
    obtain ⟨nodes', hcomplete, hcheck⟩ := completeNodes_eq_ok hcount (checkNode_of_validate hvalid)
    rcases iterate_cases fl (getItem layout "customNodes") with ⟨⟨oldCustoms, hold, hiter⟩, -⟩ | ⟨-, hnot⟩
    · rcases declaredIds_cases (listOr (getItem data "customNodes")) with ⟨⟨ids, hids, hmem⟩, -⟩ | ⟨-, hnot⟩
      · refine ⟨_, ?_, healed_of_restorable hvalid hnodes hdict (completed_of_completeNodes hcomplete) hcheck hold hiter
          hmem h⟩
        rw [selfHealLayout_restoring hnodes, hcomplete]
        exact restore_eq_merged hold hids _ _
      · exact absurd h.hashable hnot
    · exact absurd h.iterable hnot

/-- **A layout is healed** exactly when it can be. -/
theorem healed_iff (fl : Floats F) (data : Dict F) (devices : List SystemDevice) (old : Option (Dict F))
    (hvalid : validateLayoutPayload fl (.dict data) = .ok ()) (hold : OldNumeric old) :
    (∃ data', selfHealLayout fl data devices old = .ok data' ∧ Healed fl data devices old data') ↔
      Healable fl data devices old := by
  by_cases hskip : Skipped old
  · refine (healed_iff_of_skipped hvalid hskip).trans ⟨fun h => ⟨h.1, fun layout ho _ => h.2 layout ho, ?_⟩,
      fun h => ⟨h.count, fun layout ho => h.notes layout ho (hskip layout ho)⟩⟩
    exact fun layout oldNodes ho hnodes => absurd hnodes (hskip layout ho oldNodes)
  · obtain ⟨layout, rfl, oldNodes, hnodes⟩ : ∃ layout, old = some layout ∧
        ∃ oldNodes, getItem layout "nodes" = .dict oldNodes := by
      simpa only [Skipped, not_forall, not_not, exists_prop] using hskip
    have hdict : ∀ node ∈ oldNodes, ∃ pos, node.2 = .dict pos := by
      intro node hnode
      obtain ⟨pos, hpos, -⟩ := hold layout rfl node (by rw [hnodes]; exact hnode)
      exact ⟨pos, hpos⟩
    refine (healed_iff_of_restoring hvalid hnodes hdict).trans ⟨fun h => ⟨h.1, ?_, ?_⟩, fun h => ⟨h.count, ?_⟩⟩
    · rintro _ ⟨⟩ hnot
      exact absurd hnodes (hnot oldNodes)
    · rintro _ _ ⟨⟩ -
      exact h.2
    · exact h.restorable layout oldNodes rfl hnodes

/-! ### A free node -/

/-- Integers in the place of floats. -/
def wholeFloats : Floats ℤ where
  bound := 2 ^ 53
  bound_ge := le_rfl
  ofInt := id
  ofText := fun _ => none
  isZero := fun x => x == 0
  lt := fun x y => decide (x < y)
  add := (· + ·)

def server : SystemDevice := ⟨codes "3f2504e0-4f89-41d3-9a0c-0305e82c3301", "server"⟩

/-- The previous layout has a free node with its declaration. -/
def previousLayout : Dict ℤ :=
  [(codes "nodes", .dict [(server.id, position (.int 280) (.int 0)), (codes "custom-dmz", position (.int 0) (.int 120))]),
    (codes "customNodes", .list [.dict [(codes "id", .str (codes "custom-dmz")), (codes "label", .str (codes "DMZ"))]])]

/-- The model returns the free node without its declaration. -/
def undeclaredLayout : Dict ℤ :=
  [(codes "nodes", .dict [(server.id, position (.int 280) (.int 0)), (codes "custom-dmz", position (.int 0) (.int 240))])]

/-- The model forgets the free node. -/
def forgetfulLayout : Dict ℤ := [(codes "nodes", .dict [(server.id, position (.int 280) (.int 0))])]

theorem oldNumeric_previousLayout : OldNumeric (some previousLayout) := by
  rintro _ ⟨⟩ node hnode
  rcases List.mem_cons.mp hnode with rfl | hnode
  · exact ⟨_, rfl, by decide, by decide⟩
  · cases List.mem_singleton.mp hnode
    exact ⟨_, rfl, by decide, by decide⟩

theorem eq_of_declared_previousLayout {nid : Str} (h : Declared previousLayout nid) : nid = codes "custom-dmz" := by
  obtain ⟨c, hc, hid⟩ := h
  cases List.mem_singleton.mp hc
  exact (Option.some.inj hid).symm

theorem healed_forgetfulLayout :
    ∃ data', selfHealLayout wholeFloats forgetfulLayout [server] (some previousLayout) = .ok data' ∧
      Healed wholeFloats forgetfulLayout [server] (some previousLayout) data' := by
  refine (healed_iff wholeFloats forgetfulLayout [server] (some previousLayout) rfl oldNumeric_previousLayout).mpr
    ⟨by decide, ?_, ?_⟩
  · rintro _ ⟨⟩ hnot
    exact absurd rfl (hnot _)
  · rintro _ _ ⟨⟩ -
    refine ⟨trivial, fun _ h => absurd h List.not_mem_nil, fun nid _ hdecl hplaced => ?_, fun nid pos hget hdecl _ => ?_⟩
    · rw [eq_of_declared_previousLayout hdecl] at hplaced
      rcases hplaced with h | h | h | ⟨-, h⟩ <;> exact absurd h (by decide)
    · rw [eq_of_declared_previousLayout hdecl] at hget
      cases hget
      rfl

/-- **A declaration is lost**: a free node that is returned without its declaration does not get it back. -/
theorem undeclaredLayout_not_healed :
    validateLayoutPayload wholeFloats (.dict undeclaredLayout) = .ok () ∧ OldNumeric (some previousLayout) ∧
      ¬∃ data', selfHealLayout wholeFloats undeclaredLayout [server] (some previousLayout) = .ok data' ∧
        Healed wholeFloats undeclaredLayout [server] (some previousLayout) data' := by
  refine ⟨rfl, oldNumeric_previousLayout, fun ⟨data', hheal, healed⟩ => ?_⟩
  obtain rfl := Except.ok.inj hheal
  obtain ⟨c, hc, -⟩ := (healed.oldNode previousLayout rfl (codes "custom-dmz") (by decide)
    ⟨_, List.mem_singleton_self _, rfl⟩).2
  exact absurd hc List.not_mem_nil

end Repair

end AssetInventory.DiagramAi
