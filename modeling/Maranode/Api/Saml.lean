/-
  Maranode.Api.Saml

  `routes/identity.rs`: who a SAML response says the user is.

  The signature is looked for in the text of the response, and covers one element of it,
  `SignedInfo`.  The identity is what an event parser finds in the whole response, where
  the last element of a kind counts.
-/
import Maranode.Lib.Encoding
import Maranode.Lib.Find

namespace Maranode.Api

open Lib

/-! ## Libraries -/

/-- `quick_xml::events::Event`.  Attributes are those that can be read; a text comes with
    what `unescape` makes of it. -/
inductive XmlEvent where
  | start (localName : String) (attributes : List (String × String))
  | end_ (localName : String)
  | text (unescaped : Option String)
  | other

/-- A text of ASCII letters, which means the same with and without escapes. -/
def IsWord (word : Text) : Prop := word ≠ [] ∧ ∀ c ∈ word, c.isAlpha = true

/-- An element that holds a word. -/
def element (localName word : Text) : Text :=
  '<' :: (localName ++ '>' :: word ++ '<' :: '/' :: localName ++ ['>'])

/-- `quick_xml::Reader` with `trim_text`: the events up to the end of the text, or up to an
    error.  An element after the end of a text is read after the events of the text. -/
structure XmlReader where
  read : Text → List XmlEvent × Except String Unit
  read_append_element : ∀ xml events localName word, IsWord localName → IsWord word →
    read xml = (events, .ok ()) →
      read (xml ++ element localName word)
        = (events ++ [.start (String.ofList localName) [], .text (some (String.ofList word)),
            .end_ (String.ofList localName)], .ok ())

/-- The crates `x509_cert` and `rsa`. -/
structure Rsa where
  Certificate : Type
  PublicKey : Type
  Signature : Type
  fromDer : Bytes → Except String Certificate
  spkiToDer : Certificate → Except String Bytes
  fromPublicKeyDer : Bytes → Except String PublicKey
  signatureOf : Bytes → Except String Signature
  /-- PKCS#1 v1.5 over SHA-256. -/
  verify : PublicKey → Bytes → Signature → Bool

variable (R : XmlReader) (V : Rsa) (toLowercase : String → String)

/-! ## Looking for elements -/

/-- One round of the loop in `extract_signed_info_bytes`. -/
def signedInfoBetween (openTag closeTag bytes : Bytes) : Option Bytes :=
  match find openTag bytes with
  | none => none
  | some start =>
      match find closeTag (bytes.drop start) with
      | none => none
      | some relEnd => some ((bytes.drop start).take (relEnd + closeTag.length))

def extractSignedInfoBytes (xml : Text) : Option Bytes :=
  let bytes := Text.encode xml
  (signedInfoBetween (Text.encode "<ds:SignedInfo".toList)
      (Text.encode "</ds:SignedInfo>".toList) bytes).or
    (signedInfoBetween (Text.encode "<SignedInfo".toList)
      (Text.encode "</SignedInfo>".toList) bytes)

/-- One round of the loop in `xml_element_text`. -/
def textBetween (openTag closeTag xml : Text) : Option Text :=
  match find openTag xml with
  | none => none
  | some s =>
      match find ['>'] (xml.drop s) with
      | none => none
      | some gt =>
          match find closeTag (xml.drop (s + gt + 1)) with
          | none => none
          | some end_ => some (Text.trim ((xml.drop (s + gt + 1)).take end_))

/-- `xml_element_text`. -/
def xmlElementText (xml localName : Text) : Option Text :=
  (textBetween ("<ds:".toList ++ localName) ("</ds:".toList ++ localName ++ ">".toList) xml).or
    (textBetween ('<' :: localName) ("</".toList ++ localName ++ ">".toList) xml)

/-- `strip_pem`. -/
def stripPem (s : Text) : Text :=
  ((Text.lines s).filter fun l => !("-----".toList.isPrefixOf l)).flatten.filter (· != ' ')

/-! ## The signature -/

/-- `replace(['\n', '\r', ' '], "")`. -/
def dropBlanks (s : Text) : Text := s.filter fun c => c != '\n' && c != '\r' && c != ' '

/-- The key of a certificate. -/
def certificateKey (certB64 : Text) : Except String V.PublicKey :=
  match Base64.decode certB64 with
  | none => .error "cert base64"
  | some certDer =>
      match V.fromDer certDer with
      | .error e => .error s!"cert parse: {e}"
      | .ok cert =>
          match V.spkiToDer cert with
          | .error e => .error s!"spki encode: {e}"
          | .ok spkiDer =>
              match V.fromPublicKeyDer spkiDer with
              | .error e => .error s!"rsa key: {e}"
              | .ok pubKey => .ok pubKey

/-- The certificate that is configured, or that of the response. -/
def certificateText (xml : Text) : Option Text → Except String Text
  | some c => .ok (stripPem c)
  | none =>
      match xmlElementText xml "X509Certificate".toList with
      | none => .error "no certificate in assertion and none configured"
      | some c => .ok (dropBlanks c)

/-- `saml_verify_signature`. -/
def samlVerifySignature (xml : Text) (configuredCert : Option Text) : Except String Unit :=
  match extractSignedInfoBytes xml with
  | none => .error "no <SignedInfo> element in assertion"
  | some signedInfoBytes =>
      match xmlElementText xml "SignatureValue".toList with
      | none => .error "no <SignatureValue> in assertion"
      | some sigRaw =>
          match Base64.decode (dropBlanks sigRaw) with
          | none => .error "SignatureValue base64"
          | some sigBytes =>
              match certificateText xml configuredCert with
              | .error e => .error e
              | .ok certB64 =>
                  match certificateKey V certB64 with
                  | .error e => .error e
                  | .ok pubKey =>
                      match V.signatureOf sigBytes with
                      | .error e => .error s!"signature parse: {e}"
                      | .ok sig =>
                          if V.verify pubKey signedInfoBytes sig then .ok ()
                          else .error "SAML signature verification failed"

/-! ## The assertion -/

/-- The variables of the loop in `saml_parse_assertion`. -/
structure AssertionParser where
  nameId : String
  email : Option String
  username : Option String
  inNameId : Bool
  currentAttrName : String
  inAttrValue : Bool

def AssertionParser.start : AssertionParser := ⟨"", none, none, false, "", false⟩

/-- `NameID`, the mail address and the user name. -/
structure SamlIdentity where
  nameId : String
  email : Option String
  username : String
  deriving DecidableEq

namespace AssertionParser

/-- A text in an `AttributeValue`. -/
def attributeValue (p : AssertionParser) (text : String) : AssertionParser :=
  let nameLower := (toLowercase p.currentAttrName).toList
  let has := fun part : String => contains nameLower part.toList
  { p with
    email := if has "email" || has "mail" then some text else p.email
    username :=
      if has "uid" || has "username" || has "login" || has "samaccountname" then some text
      else p.username }

def step (p : AssertionParser) : XmlEvent → AssertionParser
  | .start localName attributes =>
      if localName = "NameID" then { p with inNameId := true }
      else if localName = "Attribute" then
        { p with currentAttrName := ((attributes.find? (·.1 == "Name")).map (·.2)).getD "" }
      else if localName = "AttributeValue" then { p with inAttrValue := true }
      else p
  | .end_ localName =>
      if localName = "NameID" then { p with inNameId := false }
      else if localName = "AttributeValue" then { p with inAttrValue := false }
      else p
  | .text unescaped =>
      let text := unescaped.getD ""
      let p := if p.inNameId && text != "" then { p with nameId := text } else p
      if p.inAttrValue then p.attributeValue toLowercase text else p
  | .other => p

def finish (p : AssertionParser) : Except String SamlIdentity :=
  if p.nameId = "" then .error "no NameID found in assertion"
  else .ok ⟨p.nameId, p.email, (p.username.or p.email).getD p.nameId⟩

end AssertionParser

/-- `saml_parse_assertion`. -/
def samlParseAssertion (xml : Text) : Except String SamlIdentity :=
  let events := R.read xml
  match events.2 with
  | .error e => .error e
  | .ok () => (events.1.foldl (AssertionParser.step toLowercase) .start).finish

/-- What `saml_callback` takes the response for. -/
def samlCallback (cert : Option Text) (xml : Text) : Except String SamlIdentity :=
  match samlVerifySignature V xml cert with
  | .error e => .error s!"SAML signature: {e}"
  | .ok () =>
      match samlParseAssertion R toLowercase xml with
      | .error e => .error s!"SAML assertion: {e}"
      | .ok identity => .ok identity

/-- The response has this element for `SignedInfo` and this text for `SignatureValue`. -/
def Carries (xml : Text) (signedInfo : Bytes) (signatureValue : Text) : Prop :=
  extractSignedInfoBytes xml = some signedInfo ∧
    xmlElementText xml "SignatureValue".toList = some signatureValue

/-- What was signed determines who logs in with it. -/
def Determined (cert : Text) (signedInfo : Bytes) (signatureValue : Text) : Prop :=
  ∀ xml xml' identity identity', Carries xml signedInfo signatureValue →
    Carries xml' signedInfo signatureValue →
    samlCallback R V toLowercase (some cert) xml = .ok identity →
    samlCallback R V toLowercase (some cert) xml' = .ok identity' → identity = identity'

/-! ## An element after the end -/

variable {R V toLowercase} {xml : Text} {cert signatureValue : Text} {signedInfo : Bytes}
  {identity : SamlIdentity}

theorem signedInfoBetween_append {mark : UInt8} {openTag closeTag suf : Bytes}
    (hopen : Marked mark openTag) (hclose : Marked mark closeTag)
    (hnoOpen : find openTag (mark :: suf) = none) (hnoClose : find closeTag (mark :: suf) = none)
    (bytes : Bytes) :
    signedInfoBetween openTag closeTag (bytes ++ mark :: suf)
      = signedInfoBetween openTag closeTag bytes := by
  rw [signedInfoBetween, signedInfoBetween, find_append_of_mark hopen hnoOpen]
  cases hstart : find openTag bytes with
  | none => rfl
  | some start =>
      obtain ⟨-, hle⟩ := prefix_drop_of_find hstart
      dsimp only
      rw [List.drop_append_of_le_length hle, find_append_of_mark hclose hnoClose]
      cases hend : find closeTag (bytes.drop start) with
      | none => rfl
      | some relEnd =>
          -- the closing tag is there, so the slice ends before the appended text
          obtain ⟨hpre, hle'⟩ := prefix_drop_of_find hend
          have hlen := hpre.length_le
          rw [List.length_drop] at hlen
          have htake : relEnd + closeTag.length ≤ (bytes.drop start).length := by omega
          dsimp only
          rw [List.take_append_of_le_length htake]

theorem textBetween_append {mark : Char} {openTag closeTag suf : Text}
    (hopen : Marked mark openTag) (hclose : Marked mark closeTag)
    (hnoOpen : find openTag (mark :: suf) = none) (hnoClose : find closeTag (mark :: suf) = none)
    (xml : Text) :
    textBetween openTag closeTag (xml ++ mark :: suf) = textBetween openTag closeTag xml := by
  rw [textBetween, textBetween, find_append_of_mark hopen hnoOpen]
  -- What is appended has neither tag, so the first one is where it was.
  cases hstart : find openTag xml with
  | none => rfl
  | some s =>
      obtain ⟨-, hle⟩ := prefix_drop_of_find hstart
      dsimp only
      rw [List.drop_append_of_le_length hle]
      cases hgt : find ['>'] (xml.drop s) with
      -- The `>` is in the old text, and so is the closing tag if there is one.
      | some gt =>
          obtain ⟨hpre, hle'⟩ := prefix_drop_of_find hgt
          have hlen := hpre.length_le
          rw [List.length_drop, List.length_drop, List.length_singleton] at hlen
          have hrest : s + gt + 1 ≤ xml.length := by omega
          rw [find_append_of_some hgt]
          dsimp only
          rw [List.drop_append_of_le_length hrest, find_append_of_mark hclose hnoClose]
          cases hend : find closeTag (xml.drop (s + gt + 1)) with
          | none => rfl
          | some end_ =>
              obtain ⟨-, htake⟩ := prefix_drop_of_find hend
              dsimp only
              rw [List.take_append_of_le_length htake]
      | none =>
          -- the tag is not closed, and a `>` of the appended text has no closing tag after it
          cases hgt' : find ['>'] (xml.drop s ++ mark :: suf) with
          | none => rfl
          | some gt =>
              -- A `>` that was not there before is behind the old text.
              have hbeyond : xml.length ≤ s + gt + 1 := by
                by_contra hlt
                have hlen : gt + 1 ≤ (xml.drop s).length := by
                  rw [List.length_drop]
                  omega
                have hat : ['>'] <+: (xml.drop s).drop gt := by
                  have hpre := (prefix_drop_of_find hgt').1
                  rw [List.drop_append_of_le_length (by omega)] at hpre
                  refine List.prefix_of_prefix_length_le hpre (List.prefix_append _ _) ?_
                  rw [List.length_drop, List.length_singleton]
                  omega
                exact find_eq_none_iff.mp hgt
                  (hat.isInfix.trans (List.drop_suffix gt _).isInfix)
              dsimp only
              rw [List.drop_append, List.drop_eq_nil_of_le hbeyond, List.nil_append,
                find_drop_eq_none hnoClose]

/-- The user name of an attacker: one of two, whichever the genuine one is not. -/
def otherName (name : String) : Text := if name = "a" then ['b'] else ['a']

/-- An assertion that nobody signed. -/
def forged (word : Text) : Text := element "NameID".toList word

theorem otherName_ne (name : String) : String.ofList (otherName name) ≠ name := by
  rw [otherName]
  split
  · next h =>
      rw [h]
      decide
  · next h => exact fun heq => h heq.symm

theorem otherName_cases (name : String) : otherName name = ['a'] ∨ otherName name = ['b'] := by
  rw [otherName]
  split
  · exact .inr rfl
  · exact .inl rfl

theorem isWord_otherName (name : String) : IsWord (otherName name) := by
  rcases otherName_cases name with h | h
  · rw [h]
    exact ⟨List.cons_ne_nil _ _, List.all_eq_true.mp rfl⟩
  · rw [h]
    exact ⟨List.cons_ne_nil _ _, List.all_eq_true.mp rfl⟩

/-- The search for the signed element does not see the forged one. -/
theorem extractSignedInfoBytes_append {word : Text} (h : word = ['a'] ∨ word = ['b'])
    (xml : Text) :
    extractSignedInfoBytes (xml ++ forged word) = extractSignedInfoBytes xml := by
  have hencode : Text.encode (xml ++ forged word) = Text.encode xml ++ Text.encode (forged word) :=
    List.flatMap_append
  have hds : Marked 0x3C (Text.encode "<ds:SignedInfo".toList) := ⟨_, rfl, by decide⟩
  have hdsEnd : Marked 0x3C (Text.encode "</ds:SignedInfo>".toList) := ⟨_, rfl, by decide⟩
  have hbare : Marked 0x3C (Text.encode "<SignedInfo".toList) := ⟨_, rfl, by decide⟩
  have hbareEnd : Marked 0x3C (Text.encode "</SignedInfo>".toList) := ⟨_, rfl, by decide⟩
  rw [extractSignedInfoBytes, extractSignedInfoBytes, hencode]
  rcases h with rfl | rfl
  · rw [show Text.encode (forged ['a']) = 0x3C :: (Text.encode (forged ['a'])).tail from rfl,
      signedInfoBetween_append hds hdsEnd (by decide) (by decide),
      signedInfoBetween_append hbare hbareEnd (by decide) (by decide)]
  · rw [show Text.encode (forged ['b']) = 0x3C :: (Text.encode (forged ['b'])).tail from rfl,
      signedInfoBetween_append hds hdsEnd (by decide) (by decide),
      signedInfoBetween_append hbare hbareEnd (by decide) (by decide)]

theorem xmlElementText_append {word : Text} (h : word = ['a'] ∨ word = ['b']) (xml : Text) :
    xmlElementText (xml ++ forged word) "SignatureValue".toList
      = xmlElementText xml "SignatureValue".toList := by
  have hds : Marked '<' ("<ds:".toList ++ "SignatureValue".toList) := ⟨_, rfl, by decide⟩
  have hdsEnd : Marked '<' ("</ds:".toList ++ "SignatureValue".toList ++ ">".toList) :=
    ⟨_, rfl, by decide⟩
  have hbare : Marked '<' ('<' :: "SignatureValue".toList) := ⟨_, rfl, by decide⟩
  have hbareEnd : Marked '<' ("</".toList ++ "SignatureValue".toList ++ ">".toList) :=
    ⟨_, rfl, by decide⟩
  rw [xmlElementText, xmlElementText]
  rcases h with rfl | rfl
  · rw [show forged ['a'] = '<' :: (forged ['a']).tail from rfl,
      textBetween_append hds hdsEnd (by decide) (by decide),
      textBetween_append hbare hbareEnd (by decide) (by decide)]
  · rw [show forged ['b'] = '<' :: (forged ['b']).tail from rfl,
      textBetween_append hds hdsEnd (by decide) (by decide),
      textBetween_append hbare hbareEnd (by decide) (by decide)]

theorem samlVerifySignature_append {word : Text} (h : word = ['a'] ∨ word = ['b'])
    (xml cert : Text) :
    samlVerifySignature V (xml ++ forged word) (some cert)
      = samlVerifySignature V xml (some cert) := by
  rw [samlVerifySignature, samlVerifySignature, extractSignedInfoBytes_append h,
    xmlElementText_append h]
  rfl

theorem carries_append {word : Text} (h : word = ['a'] ∨ word = ['b']) :
    Carries (xml ++ forged word) signedInfo signatureValue ↔
      Carries xml signedInfo signatureValue := by
  rw [Carries, Carries, extractSignedInfoBytes_append h, xmlElementText_append h]

/-- A text in a `NameID` is the name. -/
theorem nameId_step_text {p : AssertionParser} {word : String} (hp : p.inNameId = true)
    (h : word ≠ "") : (p.step toLowercase (.text (some word))).nameId = word := by
  have hne : (word != "") = true := bne_iff_ne.mpr h
  simp only [AssertionParser.step, Option.getD_some, hp, hne, Bool.and_self, if_true]
  split
  · rfl
  · rfl

/-- The last `NameID` counts. -/
theorem nameId_of_element (p : AssertionParser) {word : String} (h : word ≠ "") :
    (([.start "NameID" [], .text (some word), .end_ "NameID"] : List XmlEvent).foldl
      (AssertionParser.step toLowercase) p).nameId = word := by
  have hstart : p.step toLowercase (.start "NameID" []) = { p with inNameId := true } := rfl
  have hend : ∀ p : AssertionParser, (p.step toLowercase (.end_ "NameID")).nameId = p.nameId :=
    fun _ => rfl
  rw [List.foldl_cons, List.foldl_cons, List.foldl_cons, List.foldl_nil, hstart, hend]
  exact nameId_step_text rfl h

/-- A response that is accepted still is with the forged assertion after it, and then says
    whom the attacker likes. -/
theorem samlCallback_append {word : Text} (h : word = ['a'] ∨ word = ['b'])
    (hword : IsWord word)
    (hok : samlCallback R V toLowercase (some cert) xml = .ok identity) :
    ∃ identity', samlCallback R V toLowercase (some cert) (xml ++ forged word) = .ok identity' ∧
      identity'.nameId = String.ofList word := by
  have hlocal : IsWord "NameID".toList :=
    ⟨List.cons_ne_nil _ _, List.all_eq_true.mp rfl⟩
  have hnonempty : String.ofList word ≠ "" := by
    intro heq
    exact hword.1 (String.ofList_eq_empty_iff.mp heq)
  rw [samlCallback] at hok ⊢
  -- The signature is looked for in the old text, which has not changed.
  rw [samlVerifySignature_append h]
  cases hverify : samlVerifySignature V xml (some cert) with
  | error e =>
      rw [hverify] at hok
      cases hok
  | ok _ =>
      rw [hverify] at hok
      dsimp only at hok ⊢
      rw [samlParseAssertion] at hok ⊢
      cases hread : R.read xml with
      | mk events ending =>
          cases ending with
          | error e =>
              rw [hread] at hok
              cases hok
          | ok _ =>
              -- Another assertion behind the first one: its name id is read last.
              rw [forged, R.read_append_element xml events _ word hlocal hword hread]
              dsimp only
              have hname := @nameId_of_element toLowercase
                (events.foldl (AssertionParser.step toLowercase) .start) _ hnonempty
              rw [List.foldl_append, String.ofList_toList, AssertionParser.finish, hname,
                if_neg hnonempty]
              exact ⟨_, rfl, rfl⟩

/-- **What the IdP signed.**  It determines who logs in for no signature at all, unless
    nobody can log in with it. -/
theorem determined_iff (R : XmlReader) (V : Rsa) (toLowercase : String → String) (cert : Text)
    (signedInfo : Bytes) (signatureValue : Text) :
    Determined R V toLowercase cert signedInfo signatureValue ↔
      ¬ ∃ xml identity, Carries xml signedInfo signatureValue ∧
        samlCallback R V toLowercase (some cert) xml = .ok identity := by
  constructor
  · rintro hdetermined ⟨xml, identity, hcarries, hok⟩
    have hcases := otherName_cases identity.nameId
    obtain ⟨identity', hok', hname⟩ :=
      samlCallback_append hcases (isWord_otherName identity.nameId) hok
    have hsame := hdetermined _ _ _ _ hcarries ((carries_append hcases).mpr hcarries) hok hok'
    rw [← hsame] at hname
    exact otherName_ne identity.nameId hname.symm
  · intro hnone xml xml' identity identity' hcarries _ hok _
    exact absurd ⟨xml, identity, hcarries, hok⟩ hnone

/-! ## A reader -/

/-- Where a reader of elements without attributes is: in a tag or not, with the text and
    the events so far. -/
structure XmlScan where
  tag : Option Text
  text : Text
  events : List XmlEvent

def flushText (events : List XmlEvent) (text : Text) : List XmlEvent :=
  if Text.trim text = [] then events
  else events ++ [.text (some (String.ofList (Text.trim text)))]

def tagEvent : Text → XmlEvent
  | '/' :: localName => .end_ (String.ofList localName)
  | localName => .start (String.ofList localName) []

def XmlScan.step (s : XmlScan) (c : Char) : XmlScan :=
  match s.tag with
  | none =>
      if c = '<' then ⟨some [], [], flushText s.events s.text⟩ else { s with text := s.text ++ [c] }
  | some tag =>
      if c = '>' then ⟨none, [], s.events ++ [tagEvent tag]⟩
      else { s with tag := some (tag ++ [c]) }

def scanXml (xml : Text) : List XmlEvent × Except String Unit :=
  let s := xml.foldl XmlScan.step ⟨none, [], []⟩
  match s.tag with
  | none => (flushText s.events s.text, .ok ())
  | some _ => (s.events, .error "syntax error: tag not closed")

theorem isWord_ne {word : Text} (h : IsWord word) {c : Char} (hc : c.isAlpha = false) :
    ∀ d ∈ word, d ≠ c := by
  rintro d hd rfl
  rw [h.2 d hd] at hc
  cases hc

theorem foldl_tag {name : Text} (h : ∀ c ∈ name, c ≠ '>') (tag text : Text)
    (events : List XmlEvent) :
    name.foldl XmlScan.step ⟨some tag, text, events⟩ = ⟨some (tag ++ name), text, events⟩ := by
  induction name generalizing tag with
  | nil => rw [List.foldl_nil, List.append_nil]
  | cons c name ih =>
      obtain ⟨hc, hname⟩ := List.forall_mem_cons.mp h
      rw [List.foldl_cons, XmlScan.step]
      dsimp only
      rw [if_neg hc, ih hname, List.append_assoc, List.singleton_append]

theorem foldl_text {word : Text} (h : ∀ c ∈ word, c ≠ '<') (text : Text)
    (events : List XmlEvent) :
    word.foldl XmlScan.step ⟨none, text, events⟩ = ⟨none, text ++ word, events⟩ := by
  induction word generalizing text with
  | nil => rw [List.foldl_nil, List.append_nil]
  | cons c word ih =>
      obtain ⟨hc, hword⟩ := List.forall_mem_cons.mp h
      rw [List.foldl_cons, XmlScan.step]
      dsimp only
      rw [if_neg hc, ih hword, List.append_assoc, List.singleton_append]

theorem isWhite_of_isAlpha {c : Char} (h : c.isAlpha = true) : Text.isWhite c = false := by
  have hval : (decide (c.val ≥ 65 ∧ c.val ≤ 90) ||
      decide (c.val ≥ 97) && decide (c.val ≤ 122)) = true := h
  simp only [Bool.or_eq_true, Bool.and_eq_true, decide_eq_true_eq] at hval
  have hnat : (65 ≤ c.toNat ∧ c.toNat ≤ 90) ∨ (97 ≤ c.toNat ∧ c.toNat ≤ 122) := hval
  simp only [Text.isWhite, Bool.or_eq_false_iff, decide_eq_false_iff_not, beq_eq_false_iff_ne]
  omega

theorem flushText_word {word : Text} (h : IsWord word) (events : List XmlEvent) :
    flushText events word = events ++ [.text (some (String.ofList word))] := by
  have htrim : Text.trim word = word :=
    Text.trim_of_forall fun c hc => isWhite_of_isAlpha (h.2 c hc)
  rw [flushText, htrim, if_neg h.1]

theorem tagEvent_of_isWord {localName : Text} (h : IsWord localName) :
    tagEvent localName = .start (String.ofList localName) [] := by
  obtain ⟨c, rest, rfl⟩ := List.exists_cons_of_ne_nil h.1
  have hc : c ≠ '/' := isWord_ne h (by decide) c List.mem_cons_self
  rw [tagEvent]
  exact fun _ heq => hc (List.cons.inj heq).1

theorem foldl_element {localName word : Text} (hlocal : IsWord localName) (hword : IsWord word)
    (text : Text) (events : List XmlEvent) :
    (element localName word).foldl XmlScan.step ⟨none, text, events⟩
      = ⟨none, [], flushText events text ++ [.start (String.ofList localName) [],
          .text (some (String.ofList word)), .end_ (String.ofList localName)]⟩ := by
  have hopen : ∀ (text : Text) (events : List XmlEvent),
      XmlScan.step ⟨none, text, events⟩ '<' = ⟨some [], [], flushText events text⟩ := fun _ _ => rfl
  have hclose : ∀ (tag : Text) (events : List XmlEvent),
      XmlScan.step ⟨some tag, [], events⟩ '>' = ⟨none, [], events ++ [tagEvent tag]⟩ :=
    fun _ _ => rfl
  have hslash : ∀ events : List XmlEvent,
      XmlScan.step ⟨some [], [], events⟩ '/' = ⟨some ['/'], [], events⟩ := fun _ => rfl
  have hname := isWord_ne hlocal (c := '>') (by decide)
  have hplain := isWord_ne hword (c := '<') (by decide)
  have hend : tagEvent (['/'] ++ localName) = .end_ (String.ofList localName) := rfl
  rw [element]
  simp only [List.foldl_cons, List.foldl_append, List.foldl_nil, hopen, hclose, hslash,
    foldl_tag hname, foldl_text hplain, List.nil_append, flushText_word hword,
    tagEvent_of_isWord hlocal, hend, List.append_assoc]
  rfl

theorem scanXml_append_element (xml : Text) (events : List XmlEvent) (localName word : Text)
    (hlocal : IsWord localName) (hword : IsWord word) (h : scanXml xml = (events, .ok ())) :
    scanXml (xml ++ element localName word)
      = (events ++ [.start (String.ofList localName) [], .text (some (String.ofList word)),
          .end_ (String.ofList localName)], .ok ()) := by
  rw [scanXml] at h ⊢
  rw [List.foldl_append]
  cases hscan : xml.foldl XmlScan.step ⟨none, [], []⟩ with
  | mk tag text seen =>
      rw [hscan] at h
      cases tag with
      | some tag => cases (Prod.mk.inj h).2
      | none =>
          obtain rfl := (Prod.mk.inj h).1
          rw [foldl_element hlocal hword]
          rfl

def XmlReader.sample : XmlReader where
  read := scanXml
  read_append_element := scanXml_append_element

/-! ## One signature -/

/-- The element the IdP signed, once. -/
def signedOnce : Bytes := Text.encode "<SignedInfo>r1</SignedInfo>".toList

/-- Nothing else verifies. -/
def Rsa.sample : Rsa where
  Certificate := Bytes
  PublicKey := Bytes
  Signature := Bytes
  fromDer := .ok
  spkiToDer := .ok
  fromPublicKeyDer := .ok
  signatureOf := .ok
  verify _ m sig := decide (m = signedOnce ∧ sig = [0, 0, 0])

/-- The response of the IdP. -/
def aliceResponse : Text :=
  ("<Response><SignedInfo>r1</SignedInfo><SignatureValue>AAAA</SignatureValue>" ++
    "<NameID>alice</NameID></Response>").toList

set_option maxRecDepth 2000 in
/-- With an element more, the response is of somebody else. -/
theorem not_determined_aliceResponse :
    ¬ Determined .sample .sample String.toLower "AAAA".toList signedOnce "AAAA".toList := by
  intro h
  have hcarries : Carries aliceResponse signedOnce "AAAA".toList := ⟨rfl, rfl⟩
  have hcarries' : Carries (aliceResponse ++ forged "mallory".toList) signedOnce "AAAA".toList :=
    ⟨rfl, rfl⟩
  have halice : samlCallback .sample .sample String.toLower (some "AAAA".toList) aliceResponse
      = .ok ⟨"alice", none, "alice"⟩ := rfl
  have hmallory : samlCallback .sample .sample String.toLower (some "AAAA".toList)
      (aliceResponse ++ forged "mallory".toList) = .ok ⟨"mallory", none, "mallory"⟩ := rfl
  have hsame := h _ _ _ _ hcarries hcarries' halice hmallory
  exact absurd hsame (by decide)

end Maranode.Api
