/-
  Maranode.Attestation.Report

  `report.rs` and `tee.rs`: what a node reports of itself.

  Both kinds of report are known by a hash, which is the hex of a SHA-256: of the JSON of
  all that was measured, or of what the trusted environment reports for a nonce.  A hash is
  64 characters long.
-/
import Maranode.Attestation.Tpm
import Maranode.Audit.Chain

namespace Maranode.Attestation

open Lib Lib.Json

/-- `hex::encode(Sha256::digest(..))`. -/
def sha256Hex (bs : Bytes) : String := String.ofList (Hex.encode (Sha256.digest bs))

theorem length_sha256Hex (bs : Bytes) : (sha256Hex bs).length = 64 := by
  rw [sha256Hex, String.length_ofList, Hex.length_encode, Sha256.length_digest]

/-! ## report.rs -/

structure BinaryMeasurement where
  path : String
  sha256 : String
  sizeBytes : Nat

inductive TpmResult where
  | available (pcrs : PcrMap)
  | error (reason : String)
  | unavailable

structure AuditLogMeasurement where
  path : String
  sha256 : String
  entries : Nat
  chainOk : Bool
  chainDetail : Option String

structure AttestationReport where
  version : Nat
  generatedAt : String
  binary : BinaryMeasurement
  tpm : TpmResult
  auditLog : Option AuditLogMeasurement
  reportSha256 : Option String

/-- What is measured for a report. -/
structure Measured where
  now : DateTime
  binary : Except String BinaryMeasurement
  tpm : TpmResult
  auditLog : Except String (Option AuditLogMeasurement)

section Json

variable (X : External) (S : Serializer X.readF32)

def strOrNull : Option String → Value
  | none => .null
  | some s => .str s

def BinaryMeasurement.json (b : BinaryMeasurement) : Value :=
  .obj (S.members
    [("path", .str b.path), ("sha256", .str b.sha256),
      ("size_bytes", .num (NumLit.ofNat b.sizeBytes))])

/-- The registers by number. -/
def PcrMap.members (m : PcrMap) : List (String × Value) :=
  (List.range 256).filterMap fun i =>
    (m (UInt8.ofNat i)).map fun hex => (toString i, .str (String.ofList hex))

def TpmResult.json : TpmResult → Value
  | .available pcrs =>
      .obj (S.members [("status", .str "available"), ("pcrs", .obj (S.members pcrs.members))])
  | .error reason => .obj (S.members [("status", .str "error"), ("reason", .str reason)])
  | .unavailable => .obj (S.members [("status", .str "unavailable")])

def AuditLogMeasurement.json (m : AuditLogMeasurement) : Value :=
  .obj (S.members
    [("path", .str m.path), ("sha256", .str m.sha256), ("entries", .num (NumLit.ofNat m.entries)),
      ("chain_ok", .bool m.chainOk), ("chain_detail", strOrNull m.chainDetail)])

def AttestationReport.members (r : AttestationReport) : List (String × Value) :=
  [("version", .num (NumLit.ofNat r.version)), ("generated_at", .str r.generatedAt),
    ("binary", r.binary.json X S), ("tpm", r.tpm.json X S),
    ("audit_log", (r.auditLog.map (·.json X S)).getD .null)]

/-- `serde_json::to_string(&report)`. -/
def AttestationReport.toText (r : AttestationReport) : Text :=
  render (.obj (r.members X X.text ++
    (r.reportSha256.map fun h => ("report_sha256", Value.str h)).toList))

end Json

variable (X : External)

/-- `self_hash`. -/
def AttestationReport.selfHash (r : AttestationReport) : String :=
  sha256Hex (Text.encode (render (.obj (X.value.members (r.members X X.value)))))

/-- `AttestationReport::generate`. -/
def AttestationReport.generate (m : Measured) : Except String AttestationReport := do
  let binary ← m.binary
  let auditLog ← m.auditLog
  let report : AttestationReport :=
    { version := 1
      generatedAt := X.toRfc3339 m.now
      binary
      tpm := m.tpm
      auditLog
      reportSha256 := none }
  .ok { report with reportSha256 := some (report.selfHash X) }

theorem AttestationReport.reportSha256_of_generate {m : Measured} {r : AttestationReport}
    (h : generate X m = .ok r) : ∃ hash, r.reportSha256 = some hash ∧ hash.length = 64 := by
  rw [generate] at h
  cases hbinary : m.binary with
  | error e =>
      rw [hbinary] at h
      cases h
  | ok binary =>
      cases haudit : m.auditLog with
      | error e =>
          rw [hbinary, haudit] at h
          cases h
      | ok auditLog =>
          rw [hbinary, haudit] at h
          obtain rfl := Except.ok.inj h
          exact ⟨_, rfl, length_sha256Hex _⟩

/-! ## tee.rs -/

inductive TeeType where
  | intelTdx
  | amdSevSnp
  | none

def TeeType.display : TeeType → String
  | .intelTdx => "intel_tdx"
  | .amdSevSnp => "amd_sev_snp"
  | .none => "none"

structure TeeReport where
  teeType : TeeType
  reportData : String
  reportHash : String
  measurement : String
  isSynthetic : Bool

/-- `synthetic_report`, with what `measure_self` says. -/
def syntheticReport (binary : Except String BinaryMeasurement) (nonce : Bytes) : TeeReport :=
  let binaryHash :=
    match binary with
    | .ok m => m.sha256
    | .error _ => "unknown"
  let combined := binaryHash ++ ":" ++ String.ofList (Hex.encode nonce)
  let reportData := sha256Hex (Text.encode combined.toList)
  { teeType := .none
    reportData
    reportHash := sha256Hex (Text.encode reportData.toList)
    measurement := reportData
    isSynthetic := true }

/-- `try_tdx_ioctl` and `try_snp_ioctl`. -/
def tryIoctl (_ : TeeType) (_ : Bytes) : Option Bytes := Option.none

/-- `get_tdx_report` and `get_snp_report`. -/
def hardwareReport (tee : TeeType) (binary : Except String BinaryMeasurement) (nonce : Bytes) :
    TeeReport :=
  match tryIoctl tee nonce with
  | some raw =>
      { teeType := tee
        reportData := String.ofList (Hex.encode raw)
        reportHash := sha256Hex raw
        measurement := String.ofList (Hex.encode (raw.take 48))
        isSynthetic := false }
  | Option.none => { syntheticReport binary nonce with teeType := tee }

/-- `get_report`, with what `detect_tee` finds. -/
def getTeeReport (tee : TeeType) (binary : Except String BinaryMeasurement) (nonce : Bytes) :
    TeeReport :=
  match tee with
  | .none => syntheticReport binary nonce
  | tee => hardwareReport tee binary nonce

theorem length_reportHash (tee : TeeType) (binary : Except String BinaryMeasurement)
    (nonce : Bytes) : (getTeeReport tee binary nonce).reportHash.length = 64 := by
  cases tee <;> exact length_sha256Hex _

end Maranode.Attestation
