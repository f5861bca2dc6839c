/-
  Maranode.Api.Ldap

  `identity.rs`: the sign-in with a directory, as it is compiled in with the feature `ldap`.

  The entry is looked up by a filter that is written around the name, and whoever can bind
  as that entry is the user.  A directory takes a bind without a password for one that asks
  for no authentication, and says yes.
-/
import Maranode.Api.SignIn
import Maranode.Lib.FilterText

namespace Maranode.Api

open Lib Store

/-! ## Directories -/

/-- A search filter: an equality test, or something else. -/
inductive Filter where
  | equality (attr : String) (value : Bytes)
  | other (text : String)
  deriving DecidableEq

/-- The reader of filters, which knows the equality tests of RFC 4515. -/
structure FilterReader where
  parse : String → Option Filter
  parse_equality : ∀ (attr value : Text) (bytes : Bytes),
    Lib.Filter.isAttribute attr = true → Lib.Filter.valueOf value = some bytes →
    parse (String.ofList ('(' :: attr ++ '=' :: value ++ [')'])) =
      some (.equality (String.ofList attr) bytes)

structure DirectoryEntry where
  dn : String
  attrs : List (String × List Bytes)
  password : Option String

/-- A directory (RFC 4513).  Which values an entry has, by the rules of the attribute, and
    what other filters say, is up to the server, and so is a bind without a name. -/
structure Directory where
  entries : List DirectoryEntry
  named : ∀ e ∈ entries, e.dn ≠ ""
  nodup : (entries.map DirectoryEntry.dn).Nodup
  hasValue : DirectoryEntry → String → Bytes → Bool
  passes : Filter → DirectoryEntry → Bool
  passes_equality : ∀ attr value e, passes (.equality attr value) e = hasValue e attr value
  under : String → DirectoryEntry → Bool
  anonymous : String → Bool

namespace Directory

variable (dir : Directory)

/-- A simple bind: with a name and no password it is unauthenticated, and succeeds. -/
def simpleBind (dn password : String) : Bool :=
  if dn = "" then dir.anonymous password
  else decide (password = "") ||
    dir.entries.any fun e => decide (e.dn = dn) && decide (e.password = some password)

/-- The entries below a base that pass a filter. -/
def search (base : String) (f : Filter) : List DirectoryEntry :=
  dir.entries.filter fun e => dir.under base e && dir.passes f e

variable {dir}

/-- A bind with a password to an entry of the directory shows the entry's password. -/
theorem password_of_simpleBind {e : DirectoryEntry} {password : String} (he : e ∈ dir.entries)
    (hbind : dir.simpleBind e.dn password = true) (hne : password ≠ "") :
    e.password = some password := by
  rw [simpleBind, if_neg (dir.named e he), decide_eq_false hne, Bool.false_or,
    List.any_eq_true] at hbind
  obtain ⟨e', he', hsame⟩ := hbind
  rw [Bool.and_eq_true, decide_eq_true_iff, decide_eq_true_iff] at hsame
  rw [← List.inj_on_of_nodup_map dir.nodup he' he hsame.1]
  exact hsame.2

end Directory

/-! ## ldap_login -/

structure LdapCfg where
  url : String
  bindDn : String
  bindPw : String
  baseDn : String
  uidAttr : String
  groupRoleMap : List (String × String)
  defaultRole : String

/-- `str::replace` of a character. -/
def replaceChar (c : Char) (text : Text) (s : Text) : Text :=
  s.flatMap fun d => if d = c then text else [d]

def ldapEscape (s : String) : String :=
  String.ofList
    (replaceChar '\x00' "\\00".toList
      (replaceChar ')' "\\29".toList
        (replaceChar '(' "\\28".toList
          (replaceChar '*' "\\2a".toList
            (replaceChar '\\' "\\5c".toList s.toList)))))

def LdapCfg.filter (cfg : LdapCfg) (username : String) : String :=
  s!"({cfg.uidAttr}={ldapEscape username})"

/-- The values of an attribute as `SearchEntry::construct` has them: texts, or none. -/
def DirectoryEntry.texts (e : DirectoryEntry) (name : String) : List String :=
  match e.attrs.find? fun a => decide (a.1 = name) with
  | none => []
  | some a => ((a.2.mapM Text.decode).map fun vs => vs.map String.ofList).getD []

/-- `eq_ignore_ascii_case`. -/
def eqIgnoreAsciiCase (s t : String) : Bool :=
  s.toList.map Char.toLower == t.toList.map Char.toLower

/-- The role of the first group of the map that the user is a member of. -/
def LdapCfg.roleFor (cfg : LdapCfg) (memberOf : List String) : String :=
  match cfg.groupRoleMap.find? fun g => memberOf.any fun m => eqIgnoreAsciiCase m g.1 with
  | some g => g.2
  | none => cfg.defaultRole

/-- What a login meets: the rate limiter, the operations that fail, and the text of a bind
    that is refused. -/
structure LdapMoment where
  limited : Option ApiError
  connectFails : Option String
  bindFails : Option String
  searchFails : Option String
  userBindFails : Bool
  refused : String

variable (X : External) (R : Rfc3339Reader) (S : SignIn) (F : FilterReader)

/-- What the directory says of a user. -/
def LdapCfg.claim (cfg : LdapCfg) (entry : DirectoryEntry) (username : String) : SsoClaim where
  provider := .ldap
  sub := entry.dn
  username := username
  email := (entry.texts "mail").head?
  role := cfg.roleFor (entry.texts "memberOf")

/-- The search, with the filter as it is written. -/
def ldapSearch (moment : LdapMoment) (dir : Directory) (cfg : LdapCfg) (username : String) :
    Except String (List DirectoryEntry) :=
  match F.parse (cfg.filter username) with
  | none => .error "filter parse error"
  | some f =>
      match moment.searchFails with
      | some e => .error e
      | none => .ok (dir.search cfg.baseDn f)

/-- The entry that the login binds as. -/
def ldapEntry (moment : LdapMoment) (dir : Directory) (cfg : LdapCfg)
    (username : String) : ApiResult DirectoryEntry :=
  match moment.connectFails with
  | some e => .error (.internal s!"LDAP connect: {e}")
  | none =>
      match moment.bindFails with
      | some e => .error (.internal s!"LDAP bind: {e}")
      | none =>
          if !dir.simpleBind cfg.bindDn cfg.bindPw then
            .error (.internal s!"LDAP bind: {moment.refused}")
          else
            match ldapSearch F moment dir cfg username with
            | .error e => .error (.internal s!"LDAP search: {e}")
            | .ok entries =>
                match entries.head? with
                | none => .error (.unauthorized "invalid credentials")
                | some entry => .ok entry

/-- `ldap_login`. -/
def ldapLogin (db : Store.UserDb) (moment : LdapMoment) (dir : Directory)
    (configured : Option LdapCfg) (req : LoginReq) (d : Draw) : Store.UserDb × SessionReply :=
  match moment.limited with
  | some e => (db, .error e)
  | none =>
      match configured with
      | none => (db, .error (.notFound "LDAP is not configured"))
      | some cfg =>
          match ldapEntry F moment dir cfg req.username with
          | .error e => (db, .error e)
          | .ok entry =>
              if moment.userBindFails || !dir.simpleBind entry.dn req.password then
                (db, .error (.unauthorized "invalid credentials"))
              else upsertSso X R S db (cfg.claim entry req.username) d

/-! ## The filter -/

theorem replaceChar_append (c : Char) (text xs ys : Text) :
    replaceChar c text (xs ++ ys) = replaceChar c text xs ++ replaceChar c text ys :=
  List.flatMap_append

/-- The five replacements, one after the other, escape each character for itself. -/
theorem toList_ldapEscape (s : String) :
    (ldapEscape s).toList = Lib.Filter.escape s.toList := by
  rw [ldapEscape, String.toList_ofList]
  induction s.toList with
  | nil => rfl
  | cons c cs ih =>
      have hsplit : c :: cs = [c] ++ cs := rfl
      rw [hsplit, replaceChar_append, replaceChar_append, replaceChar_append, replaceChar_append,
        replaceChar_append, ih, Lib.Filter.escape, Lib.Filter.escape, List.flatMap_append,
        List.flatMap_singleton]
      refine congrArg (· ++ cs.flatMap Lib.Filter.escapeChar) ?_
      cases hnormal : Lib.Filter.isNormal c with
      | true =>
          have hplain := hnormal
          simp only [Lib.Filter.isNormal, Bool.and_eq_true, bne_iff_ne] at hplain
          obtain ⟨⟨⟨⟨hnul, hopen⟩, hclose⟩, hstar⟩, hback⟩ := hplain
          simp only [replaceChar, List.flatMap_singleton, if_neg hback, if_neg hstar,
            if_neg hopen, if_neg hclose, if_neg hnul, Lib.Filter.escapeChar, hnormal, if_true]
      | false =>
          rcases Lib.Filter.eq_of_not_isNormal hnormal with rfl | rfl | rfl | rfl | rfl
          · decide
          · decide
          · decide
          · decide
          · decide

theorem filter_eq (cfg : LdapCfg) (username : String) :
    cfg.filter username = String.ofList
      ('(' :: cfg.uidAttr.toList ++ '=' :: Lib.Filter.escape username.toList ++ [')']) := by
  rw [← toList_ldapEscape, ← String.toList_inj, String.toList_ofList, LdapCfg.filter]
  simp [String.toList_append, toString]

/-- **The filter.**  For an attribute, the filter tests for the name, whatever the name is. -/
theorem parse_filter (F : FilterReader) {cfg : LdapCfg}
    (hattribute : Lib.Filter.isAttribute cfg.uidAttr.toList = true) (username : String) :
    F.parse (cfg.filter username) =
      some (.equality cfg.uidAttr (Text.encode username.toList)) := by
  rw [filter_eq, F.parse_equality _ _ _ hattribute (Lib.Filter.valueOf_escape _),
    String.ofList_toList]

/-! ## Sessions -/

/-- The answer is a session. -/
def Creates (out : Store.UserDb × SessionReply) : Prop := ∃ token user, out.2 = .granted token user

/-- The session of a login is for someone who knows the password of an entry with the
    name. -/
def Sound (cfg : LdapCfg) (req : LoginReq) : Prop :=
  ∀ (db : Store.UserDb) (moment : LdapMoment) (dir : Directory) (d : Draw),
    Creates (ldapLogin X R S F db moment dir (some cfg) req d) →
      ∃ e ∈ dir.entries, dir.hasValue e cfg.uidAttr (Text.encode req.username.toList) = true ∧
        e.password = some req.password

/-- Nothing about the configuration stands in the way of a session: the filter is read, some
    groups lead to a role, and a session can have an end. -/
structure CanGrant (cfg : LdapCfg) (username : String) : Prop where
  reads : ∃ f, F.parse (cfg.filter username) = some f
  role : ∃ memberOf role, parseRole (cfg.roleFor memberOf) = .ok role
  expiry : ∃ now, UserDb.addHours now S.sessionHours ≠ none

/-- What a login that ends with a session has gone through. -/
structure LdapPassed (moment : LdapMoment) (dir : Directory) (cfg : LdapCfg) (req : LoginReq)
    (f : Filter) (entry : DirectoryEntry) : Prop where
  limited : moment.limited = none
  connects : moment.connectFails = none
  binds : moment.bindFails = none
  service : dir.simpleBind cfg.bindDn cfg.bindPw = true
  reads : F.parse (cfg.filter req.username) = some f
  searches : moment.searchFails = none
  found : (dir.search cfg.baseDn f).head? = some entry
  userBinds : moment.userBindFails = false
  bound : dir.simpleBind entry.dn req.password = true

variable {X R S F} {db : Store.UserDb} {moment : LdapMoment} {dir : Directory} {cfg : LdapCfg}
  {req : LoginReq} {d : Draw}

theorem not_creates_error {e : ApiError} : ¬ Creates (db, .error e) := by
  rintro ⟨token, user, hreply⟩
  cases hreply

theorem ldapLogin_of_passed {f : Filter} {entry : DirectoryEntry}
    (h : LdapPassed F moment dir cfg req f entry) :
    ldapLogin X R S F db moment dir (some cfg) req d =
      upsertSso X R S db (cfg.claim entry req.username) d := by
  have hsearch : ldapSearch F moment dir cfg req.username = .ok (dir.search cfg.baseDn f) := by
    rw [ldapSearch, h.reads]
    dsimp only
    rw [h.searches]
  have hentry : ldapEntry F moment dir cfg req.username = .ok entry := by
    rw [ldapEntry, h.connects]
    dsimp only
    rw [h.binds]
    dsimp only
    rw [h.service, Bool.not_true, if_neg Bool.false_ne_true, hsearch]
    dsimp only
    rw [h.found]
  rw [ldapLogin, h.limited]
  dsimp only
  rw [hentry]
  dsimp only
  rw [h.userBinds, h.bound, Bool.not_true, Bool.or_self, if_neg Bool.false_ne_true]

theorem exists_of_ldapSearch {username : String} {entries : List DirectoryEntry}
    (h : ldapSearch F moment dir cfg username = .ok entries) :
    ∃ f, F.parse (cfg.filter username) = some f ∧ moment.searchFails = none ∧
      entries = dir.search cfg.baseDn f := by
  rw [ldapSearch] at h
  split at h
  · cases h
  · next f hf =>
      split at h
      · cases h
      · next hsearches => exact ⟨f, hf, hsearches, (Except.ok.inj h).symm⟩

theorem passed_of_creates (h : Creates (ldapLogin X R S F db moment dir (some cfg) req d)) :
    ∃ f entry, LdapPassed F moment dir cfg req f entry ∧
      Creates (upsertSso X R S db (cfg.claim entry req.username) d) := by
  rw [ldapLogin] at h
  split at h
  · exact absurd h not_creates_error
  -- The rate, the two connections, the search and the bind of the user, in their order.
  · next hlimited =>
      cases hentry : ldapEntry F moment dir cfg req.username with
      | error e =>
          rw [hentry] at h
          exact absurd h not_creates_error
      | ok entry =>
          rw [hentry] at h
          dsimp only at h
          split at h
          · exact absurd h not_creates_error
          · next hbound =>
              rw [Bool.not_eq_true, Bool.or_eq_false_iff, Bool.not_eq_false'] at hbound
              rw [ldapEntry] at hentry
              split at hentry
              · cases hentry
              · next hconnects =>
                  split at hentry
                  · cases hentry
                  · next hbinds =>
                      split at hentry
                      · cases hentry
                      · next hservice =>
                          rw [Bool.not_eq_true, Bool.not_eq_false'] at hservice
                          split at hentry
                          · cases hentry
                          · next entries hsearch =>
                              split at hentry
                              · cases hentry
                              · next entry' hfound =>
                                  rw [Except.ok.inj hentry] at hfound
                                  -- The filter was built from the escaped name, and one entry was
                                  -- found with it.
                                  obtain ⟨f, hf, hsearches, rfl⟩ := exists_of_ldapSearch hsearch
                                  exact ⟨f, entry, ⟨hlimited, hconnects, hbinds, hservice, hf,
                                    hsearches, hfound, hbound.1, hbound.2⟩, h⟩

theorem expiry_of_creates_openSession {user : User} (h : Creates (openSession X S db user d)) :
    UserDb.addHours d.issuedAt S.sessionHours ≠ none := by
  intro hnone
  rw [openSession, UserDb.createSession, UserDb.issueSession, hnone] at h
  obtain ⟨token, user', hreply⟩ := h
  cases hreply

theorem expiry_of_creates_sessionFor {user : User} (h : Creates (sessionFor X S db user d)) :
    UserDb.addHours d.issuedAt S.sessionHours ≠ none := by
  rw [sessionFor] at h
  split at h
  · exact absurd h not_creates_error
  · exact expiry_of_creates_openSession h

/-- A session of a provider's user has a role and an end. -/
theorem of_creates_upsertSso {c : SsoClaim} (h : Creates (upsertSso X R S db c d)) :
    (∃ role, parseRole c.role = .ok role) ∧
      UserDb.addHours d.issuedAt S.sessionHours ≠ none := by
  constructor
  · rw [upsertSso] at h
    cases hrole : parseRole c.role with
    | error e =>
        rw [hrole] at h
        exact absurd h not_creates_error
    | ok role => exact ⟨role, rfl⟩
  · rcases upsertSso_cases X R S db c d with
      ⟨e, hout⟩ | ⟨found, db', -, -, hout⟩ | ⟨role, db', -, -, -, hout⟩
    · rw [hout] at h
      exact absurd h not_creates_error
    · rw [hout] at h
      exact expiry_of_creates_sessionFor h
    · rw [hout] at h
      exact expiry_of_creates_sessionFor h

/-- Whoever is vouched for, with a role, signs in to a new database. -/
theorem creates_upsertSso_fresh {c : SsoClaim} {role : Role} (hrole : parseRole c.role = .ok role)
    (hexpiry : UserDb.addHours d.issuedAt S.sessionHours ≠ none) :
    Creates (upsertSso X R S .fresh c d) := by
  have haccepts : UserDb.Accepts X .fresh (c.newUser role d) :=
    ⟨List.any_nil, Table.get_empty _⟩
  obtain ⟨db', hcreate⟩ := UserDb.isSome_create_iff.mpr haccepts
  obtain ⟨-, users, hinsert, hdb⟩ := UserDb.create_eq_some.mp hcreate
  have hnone : UserDb.fresh.getByProviderSub X R d.readAt c.provider.asStr c.sub = none := rfl
  have hgranted : Grants X (openSession X S db' (c.newUser role d) d) d.id := by
    refine (grants_openSession_iff rfl ?_).mpr ⟨hexpiry, ?_⟩
    · rw [hdb]
      have hget := congrFun (Table.get_of_insert hinsert) (X.uuidText d.id)
      exact congrArg Option.isNone (hget.trans (Function.update_self ..))
    · rw [hdb]
      rfl
  obtain ⟨token, user, hreply, -⟩ := hgranted
  rw [upsertSso, hrole]
  dsimp only
  rw [hnone]
  dsimp only
  rw [hcreate]
  exact ⟨token, user, hreply⟩

/-! ## What a bind shows -/

/-- With a password and the test for the name, a session is for someone who knows the
    password. -/
theorem sound_of_condition (h : CanGrant S F cfg req.username → req.password ≠ "" ∧
    F.parse (cfg.filter req.username) =
      some (.equality cfg.uidAttr (Text.encode req.username.toList))) :
    Sound X R S F cfg req := by
  intro db moment dir d hcreates
  obtain ⟨f, entry, hpassed, hsso⟩ := passed_of_creates hcreates
  obtain ⟨hrole, hexpiry⟩ := of_creates_upsertSso hsso
  obtain ⟨hne, hreads⟩ :=
    h ⟨⟨f, hpassed.reads⟩, ⟨entry.texts "memberOf", hrole⟩, ⟨d.issuedAt, hexpiry⟩⟩
  have hf := Option.some.inj (hpassed.reads.symm.trans hreads)
  have hmem := List.mem_of_mem_head? hpassed.found
  rw [Directory.search, List.mem_filter, Bool.and_eq_true, hf, dir.passes_equality] at hmem
  exact ⟨entry, hmem.1, hmem.2.2, Directory.password_of_simpleBind hmem.1 hpassed.bound hne⟩

section Stranger

variable (cfg : LdapCfg) (req : LoginReq) (f : Filter) (memberOf : List String)

/-- An entry in groups, with a password of its own. -/
def strangerEntry : DirectoryEntry where
  dn := "uid=u," ++ cfg.bindDn
  attrs := [("memberOf", memberOf.map fun m => Text.encode m.toList)]
  password := some (if req.password = "" then "s3cret" else req.password)

def strangerEntries : List DirectoryEntry :=
  if cfg.bindDn = "" then [strangerEntry cfg req memberOf]
  else [strangerEntry cfg req memberOf, ⟨cfg.bindDn, [], some cfg.bindPw⟩]

theorem stranger_ne : "uid=u," ++ cfg.bindDn ≠ cfg.bindDn ∧ "uid=u," ++ cfg.bindDn ≠ "" := by
  constructor
  · intro h
    have hlength := congrArg String.length h
    rw [String.length_append] at hlength
    have hprefix : "uid=u,".length = 6 := by decide
    omega
  · intro h
    have hlength := congrArg String.length h
    rw [String.length_append] at hlength
    have hprefix : "uid=u,".length = 6 := by decide
    have hempty : "".length = 0 := rfl
    omega

/-- A directory where the filter finds the entry, and nothing else does. -/
def strangerDirectory : Directory where
  entries := strangerEntries cfg req memberOf
  named := by
    intro e he
    rw [strangerEntries] at he
    split at he
    · rw [List.mem_singleton.mp he]
      exact (stranger_ne cfg).2
    · next hdn =>
        rcases List.mem_cons.mp he with rfl | he
        · exact (stranger_ne cfg).2
        · rw [List.mem_singleton.mp he]
          exact hdn
  nodup := by
    rw [strangerEntries]
    split
    · exact List.nodup_singleton _
    · refine List.nodup_cons.mpr ⟨fun hmem => ?_, List.nodup_singleton _⟩
      exact (stranger_ne cfg).1 (List.mem_singleton.mp hmem)
  hasValue e attr value :=
    decide (e.dn = "uid=u," ++ cfg.bindDn) && decide (Filter.equality attr value = f)
  passes g e := decide (e.dn = "uid=u," ++ cfg.bindDn) && decide (g = f)
  passes_equality _ _ _ := rfl
  under _ _ := true
  anonymous _ := true

theorem head?_search_stranger (base : String) :
    ((strangerDirectory cfg req f memberOf).search base f).head? =
      some (strangerEntry cfg req memberOf) := by
  have hfirst : ∃ rest,
      strangerEntries cfg req memberOf = strangerEntry cfg req memberOf :: rest := by
    rw [strangerEntries]
    split
    · exact ⟨_, rfl⟩
    · exact ⟨_, rfl⟩
  obtain ⟨rest, hrest⟩ := hfirst
  have hpasses : ((strangerDirectory cfg req f memberOf).under base
      (strangerEntry cfg req memberOf) && (strangerDirectory cfg req f memberOf).passes f
      (strangerEntry cfg req memberOf)) = true := by
    rw [strangerDirectory, strangerEntry]
    simp only [decide_true, Bool.and_self]
  have hentries : (strangerDirectory cfg req f memberOf).entries =
      strangerEntry cfg req memberOf :: rest := hrest
  rw [Directory.search, hentries, List.filter_cons_of_pos (p := fun e =>
    (strangerDirectory cfg req f memberOf).under base e &&
      (strangerDirectory cfg req f memberOf).passes f e) hpasses, List.head?_cons]

/-- The service account binds, and so does the user, with the password given. -/
theorem simpleBind_stranger :
    (strangerDirectory cfg req f memberOf).simpleBind cfg.bindDn cfg.bindPw = true ∧
      (strangerDirectory cfg req f memberOf).simpleBind ("uid=u," ++ cfg.bindDn)
        req.password = true := by
  constructor
  · rw [Directory.simpleBind]
    split
    · rfl
    · next hdn =>
        rw [Bool.or_eq_true, List.any_eq_true]
        refine .inr ⟨⟨cfg.bindDn, [], some cfg.bindPw⟩, ?_, ?_⟩
        · show _ ∈ strangerEntries cfg req memberOf
          rw [strangerEntries, if_neg hdn]
          exact List.mem_cons_of_mem _ (List.mem_singleton.mpr rfl)
        · simp only [decide_true, Bool.and_self]
  · rw [Directory.simpleBind, if_neg (stranger_ne cfg).2, Bool.or_eq_true, List.any_eq_true,
      decide_eq_true_iff]
    by_cases hpassword : req.password = ""
    · exact .inl hpassword
    · refine .inr ⟨strangerEntry cfg req memberOf, ?_, ?_⟩
      · show _ ∈ strangerEntries cfg req memberOf
        rw [strangerEntries]
        split
        · exact List.mem_singleton.mpr rfl
        · exact List.mem_cons_self
      · rw [strangerEntry, if_neg hpassword]
        simp only [decide_true, Bool.and_self]

theorem texts_stranger : (strangerEntry cfg req memberOf).texts "memberOf" = memberOf := by
  have hdecode : (memberOf.map fun m => Text.encode m.toList).mapM Text.decode =
      some (memberOf.map String.toList) := by
    induction memberOf with
    | nil => rfl
    | cons m rest ih =>
        rw [List.map_cons, List.mapM_cons, Text.decode_encode, ih]
        rfl
  have hattr : (strangerEntry cfg req memberOf).attrs.find? (fun a => decide (a.1 = "memberOf")) =
      some ("memberOf", memberOf.map fun m => Text.encode m.toList) := rfl
  rw [DirectoryEntry.texts, hattr]
  dsimp only
  rw [hdecode, Option.map_some, Option.getD_some, List.map_map]
  exact (List.map_congr_left fun m _ => String.ofList_toList).trans (List.map_id _)

variable {cfg req f memberOf}

/-- If the configuration can grant a session, it does so in this directory. -/
theorem creates_stranger {role : Role} {now : DateTime}
    (hreads : F.parse (cfg.filter req.username) = some f)
    (hrole : parseRole (cfg.roleFor memberOf) = .ok role)
    (hexpiry : UserDb.addHours now S.sessionHours ≠ none) :
    Creates (ldapLogin X R S F .fresh ⟨none, none, none, none, false, ""⟩
      (strangerDirectory cfg req f memberOf) (some cfg) req ⟨1, "", "t", now, now, now, now⟩) := by
  have hbinds := simpleBind_stranger cfg req f memberOf
  have hpassed : LdapPassed F ⟨none, none, none, none, false, ""⟩
      (strangerDirectory cfg req f memberOf) cfg req f (strangerEntry cfg req memberOf) :=
    ⟨rfl, rfl, rfl, hbinds.1, hreads, rfl, head?_search_stranger cfg req f memberOf cfg.baseDn,
      rfl, hbinds.2⟩
  have hclaim : parseRole (cfg.claim (strangerEntry cfg req memberOf) req.username).role =
      .ok role := by
    rw [LdapCfg.claim, texts_stranger]
    exact hrole
  rw [ldapLogin_of_passed hpassed]
  exact creates_upsertSso_fresh hclaim hexpiry

/-- Only a test for the name finds the entry by its name. -/
theorem filter_of_stranger {e : DirectoryEntry}
    (he : e ∈ (strangerDirectory cfg req f memberOf).entries)
    (hvalue : (strangerDirectory cfg req f memberOf).hasValue e cfg.uidAttr
      (Text.encode req.username.toList) = true)
    (hpassword : e.password = some req.password) :
    req.password ≠ "" ∧ f = .equality cfg.uidAttr (Text.encode req.username.toList) := by
  rw [strangerDirectory] at hvalue he
  dsimp only at hvalue he
  rw [Bool.and_eq_true, decide_eq_true_iff, decide_eq_true_iff] at hvalue
  refine ⟨fun hempty => ?_, hvalue.2.symm⟩
  have hentry : e = strangerEntry cfg req memberOf := by
    rw [strangerEntries] at he
    split at he
    · exact List.mem_singleton.mp he
    · rcases List.mem_cons.mp he with rfl | he
      · rfl
      · rw [List.mem_singleton.mp he] at hvalue
        exact absurd hvalue.1.symm (stranger_ne cfg).1
  rw [hentry, strangerEntry, hempty, if_pos rfl] at hpassword
  exact absurd (Option.some.inj hpassword) (by decide)

end Stranger

variable (X R S F) in
/-- **Logins.**  The filter tests for the name whatever the name is; and in every directory a
    session is for someone who knows the password of an entry with the name, exactly when no
    session is possible, or a password is given and the filter is that test. -/
theorem ldapLogin_sound_iff :
    (∀ (cfg : LdapCfg) (username : String), Lib.Filter.isAttribute cfg.uidAttr.toList = true →
      F.parse (cfg.filter username) =
        some (.equality cfg.uidAttr (Text.encode username.toList))) ∧
    ∀ (cfg : LdapCfg) (req : LoginReq), Sound X R S F cfg req ↔
      (CanGrant S F cfg req.username → req.password ≠ "" ∧
        F.parse (cfg.filter req.username) =
          some (.equality cfg.uidAttr (Text.encode req.username.toList))) := by
  refine ⟨fun cfg username hattribute => parse_filter F hattribute username, fun cfg req =>
    ⟨fun hsound hcan => ?_, sound_of_condition⟩⟩
  obtain ⟨f, hreads⟩ := hcan.reads
  obtain ⟨memberOf, role, hrole⟩ := hcan.role
  obtain ⟨now, hexpiry⟩ := hcan.expiry
  obtain ⟨e, he, hvalue, hpassword⟩ :=
    hsound _ _ _ _ (creates_stranger (X := X) (R := R) hreads hrole hexpiry)
  obtain ⟨hne, hf⟩ := filter_of_stranger he hvalue hpassword
  exact ⟨hne, hf ▸ hreads⟩

/-! ## Samples -/

/-- A reader that knows the equality tests, and refuses the rest. -/
def FilterReader.sample : FilterReader where
  parse s :=
    let body := s.toList.drop 1
    let attr := body.takeWhile (· != '=')
    let value := (body.dropWhile (· != '=')).drop 1
    if s.toList.head? == some '(' && Lib.Filter.isAttribute attr && value.getLast? == some ')' then
      (Lib.Filter.valueOf value.dropLast).map (.equality (String.ofList attr))
    else none
  parse_equality attr value bytes hattribute hvalue := by
    have hchars : ∀ c ∈ attr, (c != '=') = true := by
      intro c hc
      have hchar := List.all_eq_true.mp (Lib.Filter.all_isAttributeChar hattribute) c hc
      rw [bne_iff_ne]
      rintro rfl
      cases hchar
    have htext :
        '(' :: attr ++ '=' :: value ++ [')'] = '(' :: (attr ++ '=' :: (value ++ [')'])) := by
      rw [List.cons_append, List.cons_append, List.append_assoc, List.cons_append]
    have hattr : (attr ++ '=' :: (value ++ [')'])).takeWhile (· != '=') = attr := by
      rw [List.takeWhile_append_of_pos hchars, List.takeWhile_cons_of_neg (by decide),
        List.append_nil]
    have hrest : (attr ++ '=' :: (value ++ [')'])).dropWhile (· != '=') =
        '=' :: (value ++ [')']) := by
      rw [List.dropWhile_append_of_pos hchars, List.dropWhile_cons_of_neg (by decide)]
    dsimp only
    rw [String.toList_ofList, htext, List.head?_cons, List.drop_one, List.tail_cons, hattr, hrest,
      List.drop_one, List.tail_cons, hattribute, List.getLast?_concat, List.dropLast_concat,
      hvalue]
    rfl

def uidCfg : LdapCfg where
  url := "ldaps://directory.example"
  bindDn := "cn=svc,dc=example"
  bindPw := "svc-pw"
  baseDn := "dc=example"
  uidAttr := "uid"
  groupRoleMap := []
  defaultRole := "viewer"

/-- Whoever signs in with `uid` and a password knows the password, whatever the name. -/
theorem star_sound :
    FilterReader.sample.parse (uidCfg.filter "a*)(uid=bob") =
        some (.equality "uid" (Text.encode "a*)(uid=bob".toList)) ∧
      Sound .sample .sample .sample .sample uidCfg ⟨"a*)(uid=bob", "s3cret"⟩ := by
  obtain ⟨hfilter, hsound⟩ := ldapLogin_sound_iff .sample .sample .sample .sample
  have hreads := hfilter uidCfg "a*)(uid=bob" (by decide)
  exact ⟨hreads, (hsound uidCfg ⟨"a*)(uid=bob", "s3cret"⟩).mpr fun _ => ⟨by decide, hreads⟩⟩

/-- Alice, and the account that the daemon looks entries up with. -/
def aliceDirectory : Directory where
  entries :=
    [⟨"uid=alice,dc=example", [], some "s3cret"⟩, ⟨"cn=svc,dc=example", [], some "svc-pw"⟩]
  named := by decide
  nodup := by decide
  hasValue e attr value :=
    decide (e.dn = "uid=alice,dc=example") && decide (attr = "uid") &&
      decide (value = Text.encode "alice".toList)
  passes f e :=
    match f with
    | .equality attr value =>
        decide (e.dn = "uid=alice,dc=example") && decide (attr = "uid") &&
          decide (value = Text.encode "alice".toList)
    | .other _ => false
  passes_equality _ _ _ := rfl
  under _ _ := true
  anonymous _ := false

/-- Without a password anyone is Alice. -/
theorem not_ldapLogin_sound : ¬ Sound .sample .sample .sample .sample uidCfg ⟨"alice", ""⟩ := by
  intro hsound
  have hpassed : LdapPassed .sample ⟨none, none, none, none, false, ""⟩ aliceDirectory uidCfg
      ⟨"alice", ""⟩ (.equality "uid" (Text.encode "alice".toList))
      ⟨"uid=alice,dc=example", [], some "s3cret"⟩ :=
    ⟨rfl, rfl, rfl, by decide, parse_filter _ (by decide) _, rfl, rfl, rfl, by decide⟩
  have hcreates : Creates (ldapLogin .sample .sample .sample .sample .fresh
      ⟨none, none, none, none, false, ""⟩ aliceDirectory (some uidCfg) ⟨"alice", ""⟩
      (drawAt 1 "t1")) := by
    rw [ldapLogin_of_passed hpassed]
    have hrole : parseRole "viewer" = .ok .viewer := rfl
    exact creates_upsertSso_fresh hrole (by decide)
  obtain ⟨e, he, -, hpassword⟩ := hsound _ _ _ _ hcreates
  rcases List.mem_cons.mp he with rfl | he
  · exact absurd (Option.some.inj hpassword) (by decide)
  · rw [List.mem_singleton.mp he] at hpassword
    exact absurd (Option.some.inj hpassword) (by decide)

end Maranode.Api
