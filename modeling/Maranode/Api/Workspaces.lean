/-
  Maranode.Api.Workspaces

  `routes/workspaces.rs`: workspaces and their network namespaces.

  A workspace that asks for one has a network namespace of its own.  Creating one adds the
  namespace before the row, and deleting one removes the namespace before the row, so a
  step that fails in between leaves one without the other.  The server runs on Linux.
-/
import Maranode.Api.UserCtx
import Maranode.Isolation.Netns
import Maranode.Lib.Run
import Maranode.Store.WorkspaceDb

namespace Maranode.Api

open Lib Isolation Store

/-! ## Handlers -/

/-- What the requests for workspaces change. -/
structure WorkspaceServer where
  db : WorkspaceDb
  namespaces : Namespaces

structure WorkspaceInfo where
  id : String
  slug : String
  name : String
  hasKey : Bool
  modelAllowlist : List String
  rateLimitRpm : Option UInt32
  systemPrompt : Option String
  hasSystemPrompt : Bool
  createdAt : String
  netNamespace : Bool
  nsActive : Bool
  maxConcurrentRequests : Option UInt32
  maxModels : Option UInt32
  maxMemoryBytes : Option UInt64

structure CreateWorkspaceReq where
  slug : String
  name : String
  apiKey : Option String
  noKey : Bool
  modelAllowlist : Option (List String)
  rateLimitRpm : Option UInt32
  systemPrompt : Option String
  netNamespace : Bool
  maxConcurrentRequests : Option UInt32
  maxModels : Option UInt32
  maxMemoryBytes : Option UInt64

structure CreateWorkspaceResp where
  workspace : WorkspaceInfo
  apiKey : Option String

/-- `str::to_lowercase` and `char::is_alphanumeric`. -/
structure Letters where
  toLowercase : String → String
  isAlphanumeric : Char → Bool

variable (X : External) (G : Aead) (L : Letters)

/-- `WorkspaceInfo::from`. -/
def workspaceInfo (namespaces : Namespaces) (w : Workspace) : WorkspaceInfo where
  id := X.uuidText w.id
  slug := w.slug
  name := w.name
  hasKey := w.apiKeyHash.isSome
  modelAllowlist := w.modelAllowlist
  rateLimitRpm := w.rateLimitRpm
  systemPrompt := w.systemPrompt
  hasSystemPrompt := w.systemPrompt.isSome
  createdAt := X.toRfc3339 w.createdAt
  netNamespace := w.netNamespace
  nsActive := w.netNamespace && Netns.present namespaces w.slug
  maxConcurrentRequests := w.maxConcurrentRequests
  maxModels := w.maxModels
  maxMemoryBytes := w.maxMemoryBytes

/-- `trim().to_lowercase()`. -/
def requestSlug (req : CreateWorkspaceReq) : String :=
  L.toLowercase (String.ofList (Text.trim req.slug.toList))

def validSlug (slug : String) : Bool :=
  !slug.isEmpty && slug.toList.all fun c => L.isAlphanumeric c || c == '-' || c == '_'

/-- What one `POST /v1/workspaces` meets. -/
structure CreateMoment where
  authorized : ApiResult Unit
  /-- Ids that `Uuid::new_v4` gives. -/
  rawKey : Uuid
  id : Uuid
  now : DateTime
  /-- What is wrong with running `ip netns add`. -/
  ipFails : Option String
  random : WorkspaceDb.Random
  /-- SQLite takes the row, if its keys are new. -/
  accepted : Bool

/-- The key that is returned, and the hash that is stored. -/
def requestKey (m : CreateMoment) (req : CreateWorkspaceReq) : Option String × Option String :=
  if req.noKey then (none, none)
  else
    match req.apiKey with
    | some k => (none, some (X.sha256 (Text.encode k.toList)))
    | none =>
        let raw := String.ofList ((X.uuidText m.rawKey).toList.filter (· ≠ '-'))
        (some raw, some (X.sha256 (Text.encode raw.toList)))

def CreateWorkspaceReq.workspace (req : CreateWorkspaceReq) (m : CreateMoment) : Workspace where
  id := m.id
  slug := requestSlug L req
  name := req.name
  apiKeyHash := (requestKey X m req).2
  modelAllowlist := req.modelAllowlist.getD []
  rateLimitRpm := req.rateLimitRpm
  systemPrompt := req.systemPrompt
  createdAt := m.now
  netNamespace := req.netNamespace
  maxConcurrentRequests := req.maxConcurrentRequests
  maxModels := req.maxModels
  maxMemoryBytes := req.maxMemoryBytes
  dek := none

namespace WorkspaceServer

/-- The row of a new workspace. -/
def insertWorkspace (s : WorkspaceServer) (m : CreateMoment) (req : CreateWorkspaceReq) :
    WorkspaceServer × ApiResult CreateWorkspaceResp :=
  let ws := req.workspace X L m
  match WorkspaceDb.create X G m.random m.accepted s.db ws with
  | .error e => (s, .error (.internal e))
  | .ok db =>
      ({ s with db }, .ok ⟨workspaceInfo X s.namespaces ws, (requestKey X m req).1⟩)

def createWorkspace (s : WorkspaceServer) (m : CreateMoment) (req : CreateWorkspaceReq) :
    WorkspaceServer × ApiResult CreateWorkspaceResp :=
  match m.authorized with
  | .error e => (s, .error e)
  | .ok () =>
      let slug := requestSlug L req
      if validSlug L slug then
        if req.netNamespace then
          match Netns.create m.ipFails s.namespaces slug with
          | (_, .error e) => (s, .error (.internal s!"failed to create network namespace: {e}"))
          | (namespaces, .ok ()) => insertWorkspace X G L { s with namespaces } m req
        else insertWorkspace X G L s m req
      else (s, .error (.badRequest "slug must be alphanumeric with - or _"))

/-- What one `DELETE /v1/workspaces/:slug` meets. -/
structure DeleteMoment where
  authorized : ApiResult Unit
  /-- What is wrong with reading the row. -/
  readFails : Option String
  /-- What stands for an id or a time that does not parse. -/
  newV4 : Uuid
  now : DateTime
  ipFails : Option String
  accepted : Bool

/-- The namespace goes if it is there; that it does not is only a warning. -/
def deleteNamespace (s : WorkspaceServer) (m : DeleteMoment) (slug : String) (ws : Workspace) :
    WorkspaceServer :=
  if ws.netNamespace && Netns.present s.namespaces slug then
    { s with namespaces := (Netns.delete m.ipFails s.namespaces slug).1 }
  else s

/-- `.ok` is `204 No Content`. -/
def delWorkspace (s : WorkspaceServer) (m : DeleteMoment) (slug : String) :
    WorkspaceServer × ApiResult Unit :=
  match m.authorized with
  | .error e => (s, .error e)
  | .ok () =>
      match m.readFails with
      | some e => (s, .error (.internal e))
      | none =>
          match s.db.getBySlug X m.newV4 m.now slug with
          | none => (s, .error (.notFound s!"workspace '{slug}' not found"))
          | some ws =>
              let s := s.deleteNamespace m slug ws
              match s.db.delete m.accepted slug with
              | .error e => (s, .error (.internal e))
              | .ok (true, db) => ({ s with db }, .ok ())
              | .ok (false, db) =>
                  ({ s with db }, .error (.notFound s!"workspace '{slug}' not found"))

inductive WorkspaceRequest where
  | create (m : CreateMoment) (req : CreateWorkspaceReq)
  | delete (m : DeleteMoment) (slug : String)

def next (s : WorkspaceServer) : WorkspaceRequest → WorkspaceServer
  | .create m req => (s.createWorkspace X G L m req).1
  | .delete m slug => (s.delWorkspace X m slug).1

def step (s : WorkspaceServer) (r : WorkspaceRequest) : Option WorkspaceServer :=
  some (s.next X G L r)

/-! ## Namespaces and rows -/

/-- A workspace has its namespace exactly when its row asks for one. -/
def Agrees (s : WorkspaceServer) : Prop :=
  ∀ slug, Netns.present s.namespaces slug = true ↔
    ∃ row ∈ s.db.conn.rows, row.slug = slug ∧ row.netNamespace ≠ 0

/-- Once a namespace is added, the database takes the row; and where a row asks for a
    namespace, both are removed or neither. -/
def Clean (s : WorkspaceServer) : WorkspaceRequest → Prop
  | .create m req =>
      m.authorized = .ok () → validSlug L (requestSlug L req) = true → req.netNamespace = true →
        m.ipFails = none → Netns.present s.namespaces (requestSlug L req) = false →
          ∃ db, WorkspaceDb.create X G m.random m.accepted s.db (req.workspace X L m) = .ok db
  | .delete m slug =>
      m.authorized = .ok () → m.readFails = none →
        ∀ row, s.db.conn.find slug = some row → row.netNamespace ≠ 0 →
          (m.ipFails = none ↔ slug ≠ "default" ∧ m.accepted = true)

variable {X G L} {s : WorkspaceServer} {m : CreateMoment} {req : CreateWorkspaceReq}

/-- A row that is added agrees when its namespace does. -/
theorem Agrees.insert (h : s.Agrees) {db : WorkspaceDb} {ns : Namespaces} {ws : Workspace}
    (hcreate : WorkspaceDb.create X G m.random m.accepted s.db ws = .ok db)
    (hself : Netns.present ns ws.slug = ws.netNamespace)
    (hother : ∀ slug, slug ≠ ws.slug → Netns.present ns slug = Netns.present s.namespaces slug) :
    Agrees ⟨db, ns⟩ := by
  obtain ⟨dek, hfresh, hrows⟩ := WorkspaceDb.newRow_of_create hcreate
  have hnew : (WorkspaceDb.newRow X ws dek).netNamespace ≠ 0 ↔ ws.netNamespace = true := by
    rw [WorkspaceDb.newRow]
    cases ws.netNamespace <;> simp
  intro slug
  dsimp only
  rw [hrows]
  -- Of this slug the new row is the only one.
  by_cases hslug : slug = ws.slug
  · subst hslug
    rw [hself, ← hnew]
    constructor
    · intro hns
      exact ⟨_, List.mem_append_right _ (List.mem_singleton_self _), rfl, hns⟩
    · rintro ⟨row, hrow, hrowSlug, hns⟩
      rcases List.mem_append.mp hrow with hold | hlast
      · exact absurd hrowSlug (hfresh row hold)
      · rwa [List.mem_singleton.mp hlast] at hns
  · rw [hother slug hslug, h slug]
    constructor
    · rintro ⟨row, hrow, hrest⟩
      exact ⟨row, List.mem_append_left _ hrow, hrest⟩
    · rintro ⟨row, hrow, hrowSlug, hns⟩
      rcases List.mem_append.mp hrow with hold | hlast
      · exact ⟨row, hold, hrowSlug, hns⟩
      · rw [List.mem_singleton.mp hlast] at hrowSlug
        exact absurd hrowSlug.symm hslug

theorem insertWorkspace_of_ok {db db' : WorkspaceDb} (ns : Namespaces)
    (h : WorkspaceDb.create X G m.random m.accepted db (req.workspace X L m) = .ok db') :
    (insertWorkspace X G L ⟨db, ns⟩ m req).1 = ⟨db', ns⟩ := by
  rw [insertWorkspace, h]

theorem insertWorkspace_of_error {db : WorkspaceDb} {e : String} (ns : Namespaces)
    (h : WorkspaceDb.create X G m.random m.accepted db (req.workspace X L m) = .error e) :
    (insertWorkspace X G L ⟨db, ns⟩ m req).1 = ⟨db, ns⟩ := by
  rw [insertWorkspace, h]

/-- A namespace without a row. -/
theorem not_agrees_added (h : s.Agrees) {slug : String}
    (hfree : Netns.present s.namespaces slug = false) :
    ¬ Agrees { s with namespaces := Function.update s.namespaces (nsName slug) true } := by
  intro hagrees
  have hrow := (hagrees slug).mp (Netns.present_update_self true)
  rw [(h slug).mpr hrow] at hfree
  cases hfree

theorem createWorkspace_of_unauthorized {e : ApiError} (h : m.authorized = .error e) :
    (s.createWorkspace X G L m req).1 = s := by
  rw [createWorkspace, h]

theorem createWorkspace_of_invalid (h : validSlug L (requestSlug L req) = false) :
    (s.createWorkspace X G L m req).1 = s := by
  rw [createWorkspace]
  rcases m.authorized with e | ⟨⟩
  · rfl
  · dsimp only
    rw [h, if_neg Bool.false_ne_true]

/-- Without a namespace, only the row is added. -/
theorem createWorkspace_plain (hauth : m.authorized = .ok ())
    (hvalid : validSlug L (requestSlug L req) = true) (hns : req.netNamespace = false) :
    (s.createWorkspace X G L m req).1 = (s.insertWorkspace X G L m req).1 := by
  rw [createWorkspace, hauth]
  dsimp only
  rw [if_pos hvalid, hns, if_neg Bool.false_ne_true]

theorem createWorkspace_of_ipFails (hauth : m.authorized = .ok ())
    (hvalid : validSlug L (requestSlug L req) = true) (hns : req.netNamespace = true) {e : String}
    (hip : Netns.create m.ipFails s.namespaces (requestSlug L req) = (s.namespaces, .error e)) :
    (s.createWorkspace X G L m req).1 = s := by
  rw [createWorkspace, hauth]
  dsimp only
  rw [if_pos hvalid, if_pos hns, hip]

theorem createWorkspace_added (hauth : m.authorized = .ok ())
    (hvalid : validSlug L (requestSlug L req) = true) (hns : req.netNamespace = true)
    {namespaces : Namespaces}
    (hip : Netns.create m.ipFails s.namespaces (requestSlug L req) = (namespaces, .ok ())) :
    (s.createWorkspace X G L m req).1 =
      (insertWorkspace X G L { s with namespaces } m req).1 := by
  rw [createWorkspace, hauth]
  dsimp only
  rw [if_pos hvalid, if_pos hns, hip]

/-- **Creating.**  What is left agrees, unless a namespace was added and no row. -/
theorem createWorkspace_agrees_iff (h : s.Agrees) :
    Agrees (s.createWorkspace X G L m req).1 ↔ s.Clean X G L (.create m req) := by
  rw [Clean]
  cases hauth : m.authorized with
  | error e =>
      rw [createWorkspace_of_unauthorized hauth]
      exact iff_of_true h fun hok => by cases hok
  | ok =>
      cases hvalid : validSlug L (requestSlug L req) with
      | false =>
          rw [createWorkspace_of_invalid hvalid]
          exact iff_of_true h fun _ hslug => by cases hslug
      | true =>
          cases hns : req.netNamespace with
          -- Nothing is asked of `ip` for a plain workspace.
          | false =>
              rw [createWorkspace_plain hauth hvalid hns]
              refine iff_of_true ?_ fun _ _ hasks => by cases hasks
              cases hcreate : WorkspaceDb.create X G m.random m.accepted s.db
                  (req.workspace X L m) with
              | error e =>
                  rw [insertWorkspace_of_error s.namespaces hcreate]
                  exact h
              | ok db =>
                  rw [insertWorkspace_of_ok s.namespaces hcreate]
                  -- The slug is new, so it has no namespace either.
                  have hnone : Netns.present s.namespaces (requestSlug L req) = false := by
                    rw [Bool.eq_false_iff]
                    intro hpresent
                    obtain ⟨row, hrow, hslug, -⟩ := (h _).mp hpresent
                    obtain ⟨-, hfresh, -⟩ := WorkspaceDb.newRow_of_create hcreate
                    exact hfresh row hrow hslug
                  exact h.insert hcreate (hnone.trans hns.symm) fun _ _ => rfl
          | true =>
              -- The namespace is added first.
              by_cases hip : m.ipFails = none ∧ Netns.present s.namespaces (requestSlug L req) = false
              · obtain ⟨hip, hfree⟩ := hip
                rw [createWorkspace_added hauth hvalid hns (Netns.create_of_free hip hfree)]
                cases hcreate : WorkspaceDb.create X G m.random m.accepted s.db
                    (req.workspace X L m) with
                | error e =>
                    -- It stays behind when the database refuses the row.
                    rw [insertWorkspace_of_error _ hcreate]
                    refine iff_of_false (not_agrees_added h hfree) fun hclean => ?_
                    obtain ⟨db, hdb⟩ := hclean rfl rfl rfl hip hfree
                    cases hdb
                | ok db =>
                    rw [insertWorkspace_of_ok _ hcreate]
                    refine iff_of_true ?_ fun _ _ _ _ _ => ⟨db, rfl⟩
                    exact h.insert hcreate ((Netns.present_update_self true).trans hns.symm)
                      fun slug hslug => Netns.present_update_of_ne hslug true
              -- No namespace, no row.
              · obtain ⟨e, hfails⟩ := Netns.create_of_not_free hip
                rw [createWorkspace_of_ipFails hauth hvalid hns hfails]
                exact iff_of_true h fun _ _ _ hnone hfree => absurd ⟨hnone, hfree⟩ hip

section Delete

variable {m : DeleteMoment} {slug : String}

theorem delWorkspace_of_unauthorized {e : ApiError} (h : m.authorized = .error e) :
    (s.delWorkspace X m slug).1 = s := by
  rw [delWorkspace, h]

theorem delWorkspace_of_readFails {e : String} (h : m.readFails = some e) :
    (s.delWorkspace X m slug).1 = s := by
  rw [delWorkspace, h]
  rcases m.authorized with e | ⟨⟩ <;> rfl

theorem delWorkspace_of_missing (h : s.db.conn.find slug = none) :
    (s.delWorkspace X m slug).1 = s := by
  rw [delWorkspace, WorkspaceDb.getBySlug, h]
  rcases m.authorized with e | ⟨⟩
  · rfl
  · cases m.readFails <;> rfl

/-- What a deletion of a workspace that is there leaves. -/
theorem delWorkspace_found (hauth : m.authorized = .ok ()) (hread : m.readFails = none) {row : Row}
    (hfind : s.db.conn.find slug = some row) :
    (s.delWorkspace X m slug).1 =
      let s := s.deleteNamespace m slug (row.workspace X m.newV4 m.now)
      if slug ≠ "default" ∧ m.accepted = true then
        { s with db := { s.db with conn := s.db.conn.deleteWhere slug } }
      else s := by
  rw [delWorkspace, hauth, hread, WorkspaceDb.getBySlug, hfind]
  dsimp only [Option.map_some]
  generalize s.deleteNamespace m slug (row.workspace X m.newV4 m.now) = t
  cases hdelete : t.db.delete m.accepted slug with
  | error e =>
      rw [if_neg]
      rintro ⟨hdefault, haccepted⟩
      rw [WorkspaceDb.delete, if_neg hdefault, if_pos haccepted] at hdelete
      cases hdelete
  | ok out =>
      obtain ⟨deleted, db⟩ := out
      obtain ⟨hdefault, haccepted, -, rfl⟩ := WorkspaceDb.delete_eq_ok.mp hdelete
      rw [if_pos ⟨hdefault, haccepted⟩]
      cases deleted <;> rfl

/-- A row that goes agrees when its namespace is not there. -/
theorem Agrees.remove (h : s.Agrees) {ns : Namespaces} (hself : Netns.present ns slug = false)
    (hother : ∀ slug', slug' ≠ slug → Netns.present ns slug' = Netns.present s.namespaces slug') :
    Agrees ⟨{ s.db with conn := s.db.conn.deleteWhere slug }, ns⟩ := by
  intro slug'
  have hmem : ∀ row, row ∈ (s.db.conn.deleteWhere slug).rows ↔
      row ∈ s.db.conn.rows ∧ row.slug ≠ slug := by
    intro row
    rw [Store.Table.deleteWhere, List.mem_filter, decide_eq_true_eq]
  by_cases hslug : slug' = slug
  · rw [hslug, hself]
    refine iff_of_false Bool.false_ne_true ?_
    rintro ⟨row, hrow, hrowSlug, -⟩
    exact ((hmem row).mp hrow).2 hrowSlug
  · rw [hother slug' hslug, h slug']
    constructor
    · rintro ⟨row, hrow, hrowSlug, hns⟩
      exact ⟨row, (hmem row).mpr ⟨hrow, hrowSlug ▸ hslug⟩, hrowSlug, hns⟩
    · rintro ⟨row, hrow, hrest⟩
      exact ⟨row, ((hmem row).mp hrow).1, hrest⟩

/-- The namespaces after a deletion of a workspace whose row is there. -/
theorem deleteNamespace_eq (h : s.Agrees) {row : Row} (hfind : s.db.conn.find slug = some row) :
    s.deleteNamespace m slug (row.workspace X m.newV4 m.now) =
      if row.netNamespace ≠ 0 ∧ m.ipFails = none then
        { s with namespaces := Function.update s.namespaces (nsName slug) false }
      else s := by
  have hmem := List.mem_of_find?_eq_some hfind
  rw [deleteNamespace, Row.workspace]
  dsimp only
  by_cases hns : row.netNamespace = 0
  · have hkept : ¬ (row.netNamespace ≠ 0 ∧ m.ipFails = none) := fun hboth => hboth.1 hns
    rw [if_neg hkept, hns]
    rfl
  · have hpresent := (h slug).mpr ⟨row, hmem, Table.slug_of_find hfind, hns⟩
    rw [hpresent, Bool.and_true, if_pos (bne_iff_ne.mpr hns), Netns.delete_of_present hpresent]
    cases hip : m.ipFails with
    | none => rw [if_pos ⟨hns, rfl⟩]
    | some e =>
        rw [if_neg]
        rintro ⟨-, hnone⟩
        cases hnone

/-- The namespace of a slug is there when its row asks for it. -/
theorem Agrees.present_iff (h : s.Agrees) {row : Row} (hfind : s.db.conn.find slug = some row) :
    Netns.present s.namespaces slug = true ↔ row.netNamespace ≠ 0 := by
  rw [h slug]
  constructor
  · rintro ⟨row', hrow', hslug, hns⟩
    rwa [Table.eq_of_find hfind hrow' hslug] at hns
  · intro hns
    exact ⟨row, List.mem_of_find?_eq_some hfind, Table.slug_of_find hfind, hns⟩

/-- **Deleting.**  What is left agrees, unless of a namespace and its row one went alone. -/
theorem delWorkspace_agrees_iff (h : s.Agrees) :
    Agrees (s.delWorkspace X m slug).1 ↔ s.Clean X G L (.delete m slug) := by
  rw [Clean]
  cases hauth : m.authorized with
  | error e =>
      rw [delWorkspace_of_unauthorized hauth]
      exact iff_of_true h fun hok => by cases hok
  | ok =>
      cases hread : m.readFails with
      | some e =>
          rw [delWorkspace_of_readFails hread]
          exact iff_of_true h fun _ hnone => by cases hnone
      | none =>
          cases hfind : s.db.conn.find slug with
          | none =>
              rw [delWorkspace_of_missing hfind]
              exact iff_of_true h fun _ _ row hrow => by cases hrow
          | some row =>
              have hpresent := h.present_iff hfind
              rw [delWorkspace_found hauth hread hfind, deleteNamespace_eq h hfind]
              dsimp only
              -- The namespace goes first and its errors are dropped; then the row goes, if it may.
              by_cases hgoes : slug ≠ "default" ∧ m.accepted = true
              · rw [if_pos hgoes]
                by_cases hremoved : row.netNamespace ≠ 0 ∧ m.ipFails = none
                · rw [if_pos hremoved]
                  refine iff_of_true ?_ fun _ _ _ _ _ => iff_of_true hremoved.2 hgoes
                  exact h.remove (Netns.present_update_self false)
                    fun slug' hslug' => Netns.present_update_of_ne hslug' false
                · rw [if_neg hremoved]
                  -- There was no namespace to remove.
                  by_cases hns : row.netNamespace = 0
                  · refine iff_of_true (h.remove ?_ fun _ _ => rfl) fun _ _ row' hrow' hns' => ?_
                    · rw [Bool.eq_false_iff]
                      exact fun htrue => hpresent.mp htrue hns
                    · exact absurd hns (Option.some.inj hrow' ▸ hns')
                  · -- The namespace stays and its row goes.
                    refine iff_of_false (fun hagrees => ?_) fun hclean => ?_
                    · obtain ⟨row', hrow', hslug, -⟩ := (hagrees slug).mp (hpresent.mpr hns)
                      exact of_decide_eq_true (List.mem_filter.mp hrow').2 hslug
                    · exact hremoved ⟨hns, (hclean rfl rfl row rfl hns).mpr hgoes⟩
              · rw [if_neg hgoes]
                by_cases hremoved : row.netNamespace ≠ 0 ∧ m.ipFails = none
                · -- The row stays and its namespace goes.
                  rw [if_pos hremoved]
                  refine iff_of_false (fun hagrees => ?_) fun hclean => ?_
                  · have hrow := (hagrees slug).mpr ⟨row, List.mem_of_find?_eq_some hfind,
                      Table.slug_of_find hfind, hremoved.1⟩
                    rw [Netns.present_update_self] at hrow
                    cases hrow
                  · exact hgoes ((hclean rfl rfl row rfl hremoved.1).mp hremoved.2)
                -- Neither goes.
                · rw [if_neg hremoved]
                  refine iff_of_true h fun _ _ row' hrow' hns => ?_
                  obtain rfl := Option.some.inj hrow'
                  exact iff_of_false (fun hnone => hremoved ⟨hns, hnone⟩) hgoes

end Delete

/-- **One request.** -/
theorem next_agrees_iff (h : s.Agrees) (r : WorkspaceRequest) :
    (s.next X G L r).Agrees ↔ s.Clean X G L r := by
  cases r with
  | create m req => exact createWorkspace_agrees_iff h
  | delete m slug => exact delWorkspace_agrees_iff h

/-- **Any sequence of requests.**  From a server whose namespaces and rows agree, they agree
    after each request exactly as long as no request loses one of them alone. -/
theorem along_agrees_iff (h : s.Agrees) (rs : List WorkspaceRequest) :
    Run.Along (step X G L) (fun s r => ∀ s', s.step X G L r = some s' → s'.Agrees) s rs ↔
      Run.Along (step X G L) (Clean X G L) s rs := by
  refine Run.along_iff_of_exact (fun s r h => ?_) h rs
  rw [← next_agrees_iff h]
  constructor
  · intro hall
    exact hall _ rfl
  · intro hagrees s' hs'
    rw [← Option.some.inj hs']
    exact hagrees

/-! ## Two runs -/

/-- The row the migration inserts. -/
def defaultRow : Row where
  id := "00000000-0000-4000-8000-000000000000"
  slug := "default"
  name := "Default"
  apiKeyHash := none
  modelAllowlist := ""
  rateLimitRpm := none
  systemPrompt := none
  createdAt := "2024-01-01 00:00:00"
  netNamespace := 0
  maxConcurrentRequests := none
  maxModels := none
  maxMemoryBytes := none
  dek := none

def freshTable : Table where
  rows := [defaultRow]
  ids := List.nodup_singleton _
  slugs := List.nodup_singleton _

def freshServer : WorkspaceServer := ⟨⟨freshTable, none⟩, fun _ => false⟩

def asciiLetters : Letters := ⟨String.toLower, Char.isAlphanum⟩

/-- Nothing fails. -/
def quietMoment : CreateMoment where
  authorized := .ok ()
  rawKey := 7
  id := 1
  now := 0
  ipFails := none
  random := ⟨filled 12 0, filled 32 0⟩
  accepted := true

/-- A workspace with a namespace and no key. -/
def isolated (slug : String) : CreateWorkspaceReq where
  slug
  name := slug
  apiKey := none
  noKey := true
  modelAllowlist := none
  rateLimitRpm := none
  systemPrompt := none
  netNamespace := true
  maxConcurrentRequests := none
  maxModels := none
  maxMemoryBytes := none

theorem agrees_freshServer : freshServer.Agrees := by
  intro slug
  refine iff_of_false Bool.false_ne_true ?_
  rintro ⟨row, hrow, -, hns⟩
  rw [List.mem_singleton.mp hrow] at hns
  exact hns rfl

def quietDeletion : DeleteMoment where
  authorized := .ok ()
  readFails := none
  newV4 := 2
  now := 0
  ipFails := none
  accepted := true

/-- A workspace with a namespace is created and deleted again. -/
theorem along_agrees_clinic :
    Run.Along (step External.sample Aead.sample asciiLetters)
      (fun s r => ∀ s', s.step External.sample Aead.sample asciiLetters r = some s' → s'.Agrees)
      freshServer [.create quietMoment (isolated "clinic"), .delete quietDeletion "clinic"] := by
  have hcreated : (WorkspaceDb.create External.sample Aead.sample quietMoment.random true
      freshServer.db ((isolated "clinic").workspace External.sample asciiLetters quietMoment)).isOk =
        true := by
    decide +kernel
  rw [along_agrees_iff agrees_freshServer]
  refine ⟨fun _ _ _ _ _ => isOk_eq_true.mp hcreated, fun s' _ => ⟨fun _ _ row _ _ => ?_, ?_⟩⟩
  · exact iff_of_true rfl ⟨by decide, rfl⟩
  · exact fun _ _ => trivial

/-- A workspace is there already: the request is refused, and leaves a namespace. -/
theorem not_along_agrees_default :
    ¬ Run.Along (step External.sample Aead.sample asciiLetters)
      (fun s r => ∀ s', s.step External.sample Aead.sample asciiLetters r = some s' → s'.Agrees)
      freshServer [.create quietMoment (isolated "default")] := by
  intro h
  have hagrees := h.1 _ rfl
  have hpresent : Netns.present (freshServer.next External.sample Aead.sample asciiLetters
      (.create quietMoment (isolated "default"))).namespaces "default" = true := by
    decide +kernel
  have hrows : (freshServer.next External.sample Aead.sample asciiLetters
      (.create quietMoment (isolated "default"))).db.conn.rows = [defaultRow] := by
    decide +kernel
  obtain ⟨row, hrow, -, hns⟩ := (hagrees "default").mp hpresent
  rw [hrows] at hrow
  rw [List.mem_singleton.mp hrow] at hns
  exact hns rfl

end WorkspaceServer

end Maranode.Api
