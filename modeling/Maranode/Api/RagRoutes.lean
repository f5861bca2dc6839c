/-
  Maranode.Api.RagRoutes

  `routes/rag.rs`, and the retrieval of `routes/chat.rs`.

  The policy labels collections.  Chat looks at the label of what it has retrieved from,
  and the JSON ingest at the label of what it is to write to; no other handler does.
-/
import Maranode.Api.UserCtx
import Maranode.Common.Classification
import Maranode.Common.Events
import Maranode.Rag.Texts
import Maranode.Store.WorkspaceDb

namespace Maranode.Api

open Lib Common Rag

/-! ## Requests -/

inductive RagIngestPolicy where
  | anyone
  | adminOnly
  | allowlist
  deriving DecidableEq

structure IngestRequest where
  collection : Option String
  source : String
  text : String

structure SearchRequest where
  collection : Option String
  query : String
  topK : Option Nat

/-- A field of a multipart body; its content is read as bytes or as text, if it can be. -/
structure Part where
  name : Option String
  fileName : Option String
  bytes : Except String Bytes
  text : Except String String

/-- A body may break off. -/
abbrev Multipart := List (Except String Part)

structure RagOptions where
  collection : Option String
  topK : Option Nat

/-- A chat request, as far as the retrieval goes: why it is turned down before, if it is,
    and what the rest of the handler makes of the chunks. -/
structure ChatRetrieval where
  refused : Option ApiError
  rag : Option RagOptions
  messages : List (String × String)
  rest : List Rag.RetrievedChunk → ApiResult Bytes

inductive IngestCall where
  | ingestDocument (req : IngestRequest) (env : IngestEnv)
  | uploadDocument (body : Multipart) (env : IngestEnv)
  | uploadDocumentsBatch (body : Multipart) (env : Nat → IngestEnv)

inductive RagCall where
  | ingest (call : IngestCall)
  | extractDocument (body : Multipart)
  | getDocument (id : String)
  | getDocumentSummary (id : String)
  | resummaryDocument (id : String) (nonce : ByteArr 12) (refused : Option String)
  | listCollections
  | deleteCollection (name : String)
  | listDocuments (name : String)
  | deleteDocument (id : String)
  | search (req : SearchRequest)
  | chat (req : ChatRetrieval)

/-- A request with the headers of its caller; `logged` says whether the audit log takes
    what is appended meanwhile. -/
structure RagRequest where
  authorization : Option String
  workspace : Option String
  now : DateTime
  logged : Bool
  call : RagCall

/-! ## Replies -/

structure DocumentView where
  id : String
  source : String
  sha256 : String
  chunks : Nat
  ingestedAt : String
  title : Option String
  author : Option String
  pageCount : Nat
  summary : Option String

def DocumentView.of (d : DocumentInfo) : DocumentView where
  id := d.id
  source := d.source
  sha256 := d.sha256
  chunks := d.chunks
  ingestedAt := d.ingestedAt
  title := d.title
  author := d.author
  pageCount := d.pageCount
  summary := d.summary

structure BatchIngestItem where
  filename : String
  ok : Bool
  documentId : Option String
  collection : Option String
  chunks : Option Nat
  pages : Option Nat
  error : Option String

def BatchIngestItem.failed (filename error : String) : BatchIngestItem where
  filename := filename
  ok := false
  documentId := none
  collection := none
  chunks := none
  pages := none
  error := some error

def BatchIngestItem.of (filename : String) : Except String IngestStats → BatchIngestItem
  | .error e => .failed filename e
  | .ok stats =>
      { filename
        ok := true
        documentId := some stats.documentId
        collection := some stats.collection
        chunks := some stats.chunks
        pages := some stats.pages
        error := none }

structure SearchHit where
  source : String
  ordinal : Nat
  score : F32Bits
  text : String
  pageNumber : Nat
  section_ : Option String

def SearchHit.of (h : Rag.RetrievedChunk) : SearchHit where
  source := h.source
  ordinal := h.ordinal
  score := h.score
  text := h.text
  pageNumber := h.pageNumber
  section_ := h.section_

inductive RagReply where
  | ingested (stats : IngestStats)
  | batch (items : List BatchIngestItem)
  | extracted (filename : String) (chars : Nat) (text : String)
  | document (d : DocumentView)
  | summary (documentId : String) (summary : Option String)
  | collections (infos : List CollectionInfo)
  | deleted (name : String)
  | documents (ds : List DocumentView)
  | hits (hs : List SearchHit)
  | chat (body : Bytes)

/-! ## Bodies -/

/-- What `upload_document` gathers. -/
structure Upload where
  fileBytes : Option Bytes
  filename : Option String
  collection : Option String
  source : Option String

/-- A field of the name replaces an earlier one. -/
def Upload.add (u : Upload) (part : Part) : ApiResult Upload :=
  match part.name with
  | some "file" =>
      match part.bytes with
      | .error e => .error (.badRequest s!"reading file: {e}")
      | .ok bytes => .ok { u with filename := part.fileName, fileBytes := some bytes }
  | some "collection" =>
      match part.text with
      | .error e => .error (.badRequest s!"reading collection: {e}")
      | .ok text => .ok { u with collection := some text }
  | some "source" =>
      match part.text with
      | .error e => .error (.badRequest s!"reading source: {e}")
      | .ok text => .ok { u with source := some text }
  | _ => .ok u

structure FileEntry where
  filename : String
  bytes : Bytes

/-- What `upload_documents_batch` gathers. -/
structure Batch where
  files : List FileEntry
  collection : Option String

def Batch.add (b : Batch) (part : Part) : ApiResult Batch :=
  match part.name with
  | some "file" =>
      match part.bytes with
      | .error e => .error (.badRequest s!"reading file: {e}")
      | .ok bytes =>
          .ok { b with files := b.files ++ [⟨part.fileName.getD "upload", bytes⟩] }
  | some "collection" =>
      match part.text with
      | .error e => .error (.badRequest s!"reading collection: {e}")
      | .ok text => .ok { b with collection := some text }
  | _ => .ok b

/-- `extract_document` reads files only. -/
def Upload.addFile (u : Upload) (part : Part) : ApiResult Upload :=
  if part.name = some "file" then u.add part else .ok u

/-- The fields one after the other, until one cannot be had. -/
def readBody {α : Type} (add : α → Part → ApiResult α) (a : α) : Multipart → ApiResult α
  | [] => .ok a
  | .error e :: _ => .error (.badRequest s!"multipart error: {e}")
  | .ok part :: parts =>
      match add a part with
      | .error e => .error e
      | .ok a => readBody add a parts

/-- The file of an upload with its name, and where it is from. -/
def Upload.file (u : Upload) : ApiResult (FileEntry × String) :=
  match u.fileBytes with
  | none => .error (.badRequest "missing `file` field")
  | some bytes =>
      let fname := u.filename.getD "upload"
      if bytes.isEmpty then .error (.badRequest "uploaded file is empty")
      else .ok (⟨fname, bytes⟩, u.source.getD fname)

def readUpload (body : Multipart) : ApiResult Upload :=
  readBody Upload.add ⟨none, none, none, none⟩ body

def readBatch (body : Multipart) : ApiResult Batch :=
  match readBody Batch.add ⟨[], none⟩ body with
  | .error e => .error e
  | .ok b => if b.files.isEmpty then .error (.badRequest "no files provided") else .ok b

/-! ## The state -/

structure RagState where
  policy : ClassificationPolicy
  rag : Option RagEngine
  adminKey : Option String
  userDb : UserDb
  ragIngestPolicy : RagIngestPolicy
  ragIngestAllowlist : List String
  workspaces : Store.Table
  audit : List (String × AuditEvent)

/-- `bearer_key`, which may be empty. -/
def bearerKey (authorization : Option String) : Option String :=
  (stripBearer authorization).map fun value => String.ofList (Text.trim value)

variable (X : External) (G : Store.Aead) (F : Floats) (R : Readers)

namespace RagState

def credentials (s : RagState) (now : DateTime) : Credentials where
  adminKey := s.adminKey
  userDb := s.userDb
  now := now

/-- `state.audit.append`, whose error the handlers drop. -/
def append (s : RagState) (entry : String × AuditEvent) (logged : Bool) : RagState :=
  if logged then { s with audit := s.audit ++ [entry] } else s

def requireRag (s : RagState) : ApiResult RagEngine :=
  match s.rag with
  | some rag => .ok rag
  | none => .error (.notImplemented "RAG is not enabled (start daemon with --rag)")

/-- The bearer is the admin key. -/
def isAdminKey (s : RagState) (authorization : Option String) : Bool :=
  s.adminKey.any fun k => (bearerKey authorization).any (· == k)

def checkIngestPermission (s : RagState) (authorization : Option String) : ApiResult Unit :=
  if s.ragIngestPolicy = .anyone then .ok ()
  else
    match s.adminKey with
    | none =>
        .error (.forbidden
          "RAG ingest policy requires authentication, but no admin key is configured")
    | some _ =>
        match s.ragIngestPolicy with
        | .anyone => .ok ()
        | .adminOnly =>
            if s.isAdminKey authorization then .ok ()
            else .error (.forbidden "RAG ingest requires the admin key")
        | .allowlist =>
            if s.isAdminKey authorization ||
                (bearerKey authorization).any (s.ragIngestAllowlist.contains ·) then .ok ()
            else .error (.forbidden "RAG ingest requires an authorized key")

/-- `require_rag_admin`. -/
def requireRagAdmin (s : RagState) (r : RagRequest) : ApiResult Unit :=
  (s.credentials r.now).authorizePrivileged X r.authorization fun role => role.has .ragIngest

/-- `WorkspaceCtx`: the slug of the workspace the headers name. -/
def workspaceCtx (s : RagState) (r : RagRequest) : ApiResult String :=
  let slug := r.workspace.getD "default"
  let bearer := String.ofList ((stripBearer r.authorization).getD [])
  match s.workspaces.find slug with
  | none => .error (.unauthorized s!"workspace '{slug}' not found")
  | some ws =>
      if s.adminKey.any fun k => !k.isEmpty && bearer == k then .ok ws.slug
      else
        match ws.apiKeyHash with
        | none => .ok ws.slug
        | some expected =>
            if X.sha256 (Text.encode bearer.toList) == expected then .ok ws.slug
            else .error (.unauthorized "invalid workspace key")

/-! ## Ingesting -/

/-- A label that keeps the JSON ingest from a collection. -/
def ingestLabel (s : RagState) (authorization : Option String) (collection : String) :
    Option DataLabel :=
  match s.policy.collections.lookup collection with
  | none => none
  | some col =>
      if col.blockOnViolation && .isPublic < col.label && !s.isAdminKey authorization then
        some col.label
      else none

def ingestedEvent (collection source : String) (chunks : Nat) : String × AuditEvent :=
  ("api", .ragDocumentIngested collection source chunks.toUInt64)

/-- What becomes of an ingest: it is logged if it went through. -/
def finishIngest (s : RagState) (r : RagRequest) (source : String) (refuse : String → ApiError)
    (ingested : RagEngine × Except String IngestStats) : RagState × ApiResult RagReply :=
  let s := { s with rag := some ingested.1 }
  match ingested.2 with
  | .error e => (s, .error (refuse e))
  | .ok stats =>
      (s.append (ingestedEvent stats.collection source stats.chunks) r.logged,
        .ok (.ingested stats))

def ingestDocument (s : RagState) (r : RagRequest) (req : IngestRequest) (env : IngestEnv) :
    RagState × ApiResult RagReply :=
  match s.checkIngestPermission r.authorization, s.requireRag with
  | .error e, _ => (s, .error e)
  | .ok _, .error e => (s, .error e)
  | .ok _, .ok rag =>
      let collection := req.collection.getD rag.config.defaultCollection
      if (Text.trim req.text.toList).isEmpty then
        (s, .error (.badRequest "`text` must not be empty"))
      else
        match s.ingestLabel r.authorization collection with
        | some label =>
            (s.append ("classification", .dataClassificationViolation "ingest" collection
                label.asStr DataLabel.isPublic.asStr true) r.logged,
              .error (.forbidden (s!"collection '{collection}' is labeled {label.asStr} — " ++
                "ingest requires admin key")))
        | none =>
            s.finishIngest r req.source .internal
              (rag.ingest X G F R env collection req.source req.text)

variable (summarize : Summarizer)

def uploadDocument (s : RagState) (r : RagRequest) (body : Multipart) (env : IngestEnv) :
    RagState × ApiResult RagReply :=
  match s.checkIngestPermission r.authorization, s.requireRag with
  | .error e, _ => (s, .error e)
  | .ok _, .error e => (s, .error e)
  | .ok _, .ok rag =>
      match readUpload body with
      | .error e => (s, .error e)
      | .ok u =>
          match u.file with
          | .error e => (s, .error e)
          | .ok (file, source) =>
              s.finishIngest r source .badRequest
                (rag.ingestBytes X G F R env (u.collection.getD rag.config.defaultCollection)
                  source file.bytes file.filename (some summarize))

/-- The files of a batch from the given one on. -/
def ingestFiles (env : Nat → IngestEnv) (collection : String) (rag : RagEngine) (i : Nat) :
    List FileEntry → RagEngine × List BatchIngestItem
  | [] => (rag, [])
  | file :: files =>
      if file.bytes.isEmpty then
        let rest := ingestFiles env collection rag (i + 1) files
        (rest.1, .failed file.filename "file is empty" :: rest.2)
      else
        let ingested := rag.ingestBytes X G F R (env i) collection file.filename file.bytes
          file.filename (some summarize)
        let rest := ingestFiles env collection ingested.1 (i + 1) files
        (rest.1, .of file.filename ingested.2 :: rest.2)

/-- The event of an item, if it went through. -/
def batchEvent (item : BatchIngestItem) : Option (String × AuditEvent) :=
  match item.collection, item.chunks with
  | some collection, some chunks => some (ingestedEvent collection item.filename chunks)
  | _, _ => none

def uploadDocumentsBatch (s : RagState) (r : RagRequest) (body : Multipart)
    (env : Nat → IngestEnv) : RagState × ApiResult RagReply :=
  match s.checkIngestPermission r.authorization, s.requireRag with
  | .error e, _ => (s, .error e)
  | .ok _, .error e => (s, .error e)
  | .ok _, .ok rag =>
      match readBatch body with
      | .error e => (s, .error e)
      | .ok b =>
          let (rag, items) := ingestFiles X G F R summarize env
            (b.collection.getD rag.config.defaultCollection) rag 0 b.files
          let events := if r.logged then items.filterMap batchEvent else []
          ({ s with rag := some rag, audit := s.audit ++ events }, .ok (.batch items))

def ingest (s : RagState) (r : RagRequest) (call : IngestCall) : RagState × ApiResult RagReply :=
  match call with
  | .ingestDocument req env => s.ingestDocument X G F R r req env
  | .uploadDocument body env => s.uploadDocument X G F R summarize r body env
  | .uploadDocumentsBatch body env => s.uploadDocumentsBatch X G F R summarize r body env

/-! ## Reading -/

def extractDocument (body : Multipart) : ApiResult RagReply :=
  match readBody Upload.addFile ⟨none, none, none, none⟩ body with
  | .error e => .error e
  | .ok u =>
      match u.file with
      | .error e => .error e
      | .ok (file, _) =>
          match R.extract file.bytes file.filename with
          | .error e => .error (.badRequest e)
          | .ok doc => .ok (.extracted file.filename doc.fullText.length doc.fullText)

/-- The document of an id, for the handlers that read one. -/
def findDocument (s : RagState) (id : String) : ApiResult DocumentInfo :=
  match s.requireRag with
  | .error e => .error e
  | .ok rag =>
      match rag.store.getDocument G id with
      | none => .error (.notFound "document not found")
      | some d => .ok d

def getDocument (s : RagState) (id : String) : ApiResult RagReply :=
  (s.findDocument G id).map fun d => .document (.of d)

def getDocumentSummary (s : RagState) (id : String) : ApiResult RagReply :=
  (s.findDocument G id).map fun d => .summary id d.summary

def resummaryDocument (s : RagState) (r : RagRequest) (id : String) (nonce : ByteArr 12)
    (refused : Option String) : RagState × ApiResult RagReply :=
  match s.checkIngestPermission r.authorization, s.requireRag with
  | .error e, _ => (s, .error e)
  | .ok _, .error e => (s, .error e)
  | .ok _, .ok rag =>
      match rag.store.getDocument G id with
      | none => (s, .error (.notFound "document not found"))
      | some _ =>
          match rag.store.getDocumentText G id with
          | .error e => (s, .error (.internal e))
          | .ok none => (s, .error (.notFound "document has no stored chunks"))
          | .ok (some text) =>
              match summarize text with
              | .error e => (s, .error (.internal e))
              | .ok summary =>
                  match rag.store.setSummary G nonce refused id summary with
                  | .error e => (s, .error (.internal e))
                  | .ok store =>
                      ({ s with rag := some { rag with store } }, .ok (.summary id (some summary)))

def listCollections (s : RagState) : ApiResult RagReply :=
  s.requireRag.map fun rag => .collections rag.store.listCollections

def listDocuments (s : RagState) (name : String) : ApiResult RagReply :=
  s.requireRag.map fun rag => .documents ((rag.store.listDocuments G name).map .of)

def deleteCollection (s : RagState) (r : RagRequest) (name : String) :
    RagState × ApiResult RagReply :=
  match s.requireRagAdmin X r, s.requireRag with
  | .error e, _ => (s, .error e)
  | .ok _, .error e => (s, .error e)
  | .ok _, .ok rag =>
      let (found, store) := rag.store.deleteCollection name
      ({ s with rag := some { rag with store } },
        if found then .ok (.deleted name)
        else .error (.notFound s!"collection '{name}' not found"))

def deleteDocument (s : RagState) (r : RagRequest) (id : String) :
    RagState × ApiResult RagReply :=
  match s.requireRagAdmin X r, s.requireRag with
  | .error e, _ => (s, .error e)
  | .ok _, .error e => (s, .error e)
  | .ok _, .ok rag =>
      let (found, store) := rag.store.deleteDocument id
      ({ s with rag := some { rag with store } },
        if found then .ok (.deleted id)
        else .error (.notFound s!"document '{id}' not found"))

def retrievalEvent (collection query : String) (hits : List Rag.RetrievedChunk) :
    String × AuditEvent :=
  ("api", .ragRetrieval collection (X.sha256 (Text.encode query.toList)) hits.length.toUInt64)

def search (s : RagState) (r : RagRequest) (req : SearchRequest) :
    RagState × ApiResult RagReply :=
  match s.requireRag with
  | .error e => (s, .error e)
  | .ok rag =>
      let collection := req.collection.getD rag.config.defaultCollection
      if (Text.trim req.query.toList).isEmpty then
        (s, .error (.badRequest "`query` must not be empty"))
      else
        match rag.retrieve G F collection req.query req.topK with
        | .error e => (s, .error (.internal e))
        | .ok hits =>
            (s.append (retrievalEvent X collection req.query hits) r.logged,
              .ok (.hits (hits.map .of)))

/-! ## Chat -/

def violations (s : RagState) (slug auditCollection : String) : List ViolationInfo :=
  if auditCollection == "*" then s.policy.checkAllCollections slug
  else (s.policy.checkAccess slug auditCollection).toList

def blockedError (slug : String) (v : ViolationInfo) : ApiError :=
  .forbidden (s!"workspace '{slug}' (clearance: {v.workspaceClearance.asStr}) " ++
    s!"cannot access collection '{v.collection}' (label: {v.requiredLabel.asStr})")

/-- The violations are logged up to the first that blocks. -/
def enforce (s : RagState) (slug : String) (logged : Bool) :
    List ViolationInfo → RagState × Option ApiError
  | [] => (s, none)
  | v :: vs =>
      let s := s.append ("classification", .dataClassificationViolation slug v.collection
        v.requiredLabel.asStr v.workspaceClearance.asStr v.block) logged
      if v.block then (s, some (blockedError slug v)) else enforce s slug logged vs

/-- The chunks for a query: of one collection, or of all. -/
def retrieveFor (rag : RagEngine) (opts : RagOptions) (query : String) :
    Except String (List Rag.RetrievedChunk) :=
  match opts.collection with
  | some col => rag.retrieve G F col query opts.topK
  | none => rag.retrieveAllCollections G F query opts.topK

/-- The retrieval of `run`, past the checks that come before it. -/
def chatRetrieval (s : RagState) (r : RagRequest) (slug : String) (req : ChatRetrieval)
    (opts : RagOptions) : RagState × ApiResult RagReply :=
  match s.rag with
  | none =>
      (s, .error (.notImplemented ("RAG was requested but is not enabled on this server " ++
        "(start the daemon with --rag)")))
  | some rag =>
      match req.messages.reverse.find? (·.1 == "user") with
      | none => (s, .error (.badRequest "RAG requested but no user message to ground"))
      | some (_, query) =>
          match retrieveFor G F rag opts query with
          | .error e => (s, .error (.internal e))
          | .ok hits =>
              let auditCollection := opts.collection.getD "*"
              let s := s.append (retrievalEvent X auditCollection query hits) r.logged
              let enforced := s.enforce slug r.logged (s.violations slug auditCollection)
              match enforced.2 with
              | some e => (enforced.1, .error e)
              | none => (enforced.1, (req.rest hits).map .chat)

def chat (s : RagState) (r : RagRequest) (req : ChatRetrieval) : RagState × ApiResult RagReply :=
  match s.workspaceCtx X r with
  | .error e => (s, .error e)
  | .ok slug =>
      match req.refused, req.rag with
      | some e, _ => (s, .error e)
      | none, none => (s, (req.rest []).map .chat)
      | none, some opts => s.chatRetrieval X G F r slug req opts

/-! ## Every request -/

def serve (s : RagState) (r : RagRequest) : RagState × ApiResult RagReply :=
  match r.call with
  | .ingest call => s.ingest X G F R summarize r call
  | .extractDocument body => (s, extractDocument R body)
  | .getDocument id => (s, s.getDocument G id)
  | .getDocumentSummary id => (s, s.getDocumentSummary G id)
  | .resummaryDocument id nonce refused => s.resummaryDocument G summarize r id nonce refused
  | .listCollections => (s, s.listCollections)
  | .deleteCollection name => s.deleteCollection X r name
  | .listDocuments name => (s, s.listDocuments G name)
  | .deleteDocument id => s.deleteDocument X r id
  | .search req => s.search X G F r req
  | .chat req => s.chat X G F r req

end RagState

end Maranode.Api
