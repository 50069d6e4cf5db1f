import Registrar.Library.JsValue
import Registrar.Library.JsonRead
import Registrar.Policy.Rules
import Registrar.Store.AuditAnchor
import Registrar.Store.MergeVerify

/-!
# Verifying an anchor log

`verifyAnchors` (`audit-anchor.ts`) and `verifySignedMergeAnchors`
(`signed-merge-anchor.ts`) over the text of a log.  The records are what
`JSON.parse` makes of its lines: nothing checks their shape, so the fields are
any values and the operators of the language convert them.
-/

namespace Registrar

/-- The parts of the runtime that the verifiers call. -/
structure AnchorHost extends JsNumbers where
  sha256 : String → String
  /-- `JSON.stringify`, of fields that `JSON.parse` has read. -/
  stringify : Json → String
  /-- `verifyMergeAnchorSignature`, which catches what it throws. -/
  signatureVerifies : Json → Bool

variable (host : AnchorHost)

/-- The lines of a log that are not blank. -/
def anchorLines (log : String) : List String :=
  ((log.toList.splitOn '\n').filter fun line =>
    Trim.trimChars isTrimmedSpace line ≠ []).map String.ofList

/-- `readAnchors`, of the text of the log unless there is none. -/
def readAnchorLines (log : Option String) : Except JsError (List Json) :=
  match log with
  | none => .ok []
  | some log => (anchorLines log).mapM fun line =>
      match Json.parse line with
      | some record => .ok record
      | none => .error .syntaxError

/-- The own properties of a record.  A number, a text or an array has none of
the names that the verifiers read. -/
def properties : Json → Except JsError (List (String × Json))
  | .null => .error .typeError
  | .object fields => .ok fields
  | _ => .ok []

/-- The value of a property, for a record that has properties. -/
def propertyOf (record : Json) (name : String) : JsValue :=
  match record with
  | .object fields => Json.field? fields name
  | _ => none

/-- The fields that a literal with these names gets from a record; an
undefined one is not serialised. -/
def bodyFields (record : Json) (names : List String) : List (String × Json) :=
  names.flatMap fun name => Json.optionalField name (propertyOf record name)

inductive LogBreakReason where
  | anchorHashMismatch
  | anchorLinkMismatch
  | dagSignatureInvalid
  | historyTruncated
  | historyRewritten
  | dagParentMismatch
  deriving DecidableEq, Repr

structure LogBreak where
  index : Nat
  anchoredAt : JsValue
  reason : LogBreakReason
  detail : String

def hashBreaks (index : Nat) (record : Json) (recomputed : String) :
    List LogBreak :=
  if host.strictEquals (some (.string recomputed))
      (propertyOf record "anchorHash") then []
  else
    [{ index := index
       anchoredAt := propertyOf record "anchoredAt"
       reason := .anchorHashMismatch
       detail := "anchor record content does not match its anchorHash" }]

def linkBreaks (index : Nat) (record : Json) (expectedPrev : JsValue) :
    Except JsError (List LogBreak) :=
  if host.strictEquals (propertyOf record "prevAnchorHash") expectedPrev then
    .ok []
  else do
    let stored ← host.printedOrNull (propertyOf record "prevAnchorHash")
    let expected ← host.printedOrNull expectedPrev
    return [
      { index := index
        anchoredAt := propertyOf record "anchoredAt"
        reason := .anchorLinkMismatch
        detail := "prevAnchorHash " ++ stored ++ " != expected " ++ expected }]

/-- `rows[anchored - 1]`, which a fraction does not name. -/
def anchoredRow? (rows : List AuditChainRow) : JsNumber → Option AuditChainRow
  | .finite anchored =>
      if anchored.den = 1 ∧ 0 < anchored then rows[(anchored.num - 1).toNat]?
      else none
  | _ => none

def historyBreaks (rows : List AuditChainRow) (index : Nat) (record : Json) :
    Except JsError (List LogBreak) := do
  let anchored ← host.toNumber (propertyOf record "chainedRows")
  if JsNumber.lessThan (.finite rows.length) anchored then
    let claimed ← host.printed (propertyOf record "chainedRows")
    return [
      { index := index
        anchoredAt := propertyOf record "anchoredAt"
        reason := .historyTruncated
        detail := "anchored " ++ claimed ++ " chained rows; chain now has " ++
          toString rows.length }]
  else if JsNumber.lessThan (.finite 0) anchored then
    match anchoredRow? rows anchored with
    | none => throw .typeError
    | some row =>
        if host.strictEquals (some (Json.ofOption row.entryHash))
            (propertyOf record "chainHead") then
          return []
        else
          let claimed ← host.printed (propertyOf record "chainedRows")
          let head ← host.printed (propertyOf record "chainHead")
          return [
            { index := index
              anchoredAt := propertyOf record "anchoredAt"
              reason := .historyRewritten
              detail := "row " ++ claimed ++ " head " ++
                orNull row.entryHash ++ " != anchored " ++ head }]
  else return []

/-- A loop over the records, each checked against the hash of the one before
it. -/
def walkAnchors
    (check : Nat → JsValue → Json → Except JsError (List LogBreak)) :
    Nat → JsValue → List Json → Except JsError (List LogBreak)
  | _, _, [] => .ok []
  | index, expectedPrev, record :: rest => do
      let found ← check index expectedPrev record
      let later ← walkAnchors check (index + 1)
        (propertyOf record "anchorHash") rest
      return found ++ later

def anchorBodyNames : List String :=
  ["schemaVersion", "anchoredAt", "tenantId", "chainedRows", "chainHead",
    "prevAnchorHash"]

def recomputedAnchorHash (record : Json) : String :=
  host.sha256 (host.stringify (.object (bodyFields record anchorBodyNames)))

def checkAnchor (rows : List AuditChainRow) (index : Nat)
    (expectedPrev : JsValue) (record : Json) :
    Except JsError (List LogBreak) := do
  let _ ← properties record
  let link ← linkBreaks host index record expectedPrev
  let history ← historyBreaks host rows index record
  return hashBreaks host index record (recomputedAnchorHash host record) ++
    link ++ history

structure AnchorLogResult where
  chain : AuditVerifyResult
  anchorCount : Nat
  anchorBreaks : List LogBreak
  ok : Bool

def verifyAnchorLog (rows : List AuditChainRow) (log : Option String) :
    Except JsError AnchorLogResult := do
  let chain := verifyAuditChain host.sha256 (findAllChronological rows)
  let anchors ← readAnchorLines log
  let anchorBreaks ← walkAnchors (checkAnchor host (chainedRowsOf rows)) 0
    (some .null) anchors
  return {
    chain := chain
    anchorCount := anchors.length
    anchorBreaks := anchorBreaks
    ok := chain.breaks.isEmpty && anchorBreaks.isEmpty }

/-- `[...value]` -/
def spread : JsValue → Except JsError (List Json)
  | some (.array items) => .ok items
  | some (.string text) =>
      .ok (text.toList.map fun char => .string (String.singleton char))
  | _ => .error .typeError

/-- The comparator of the sort puts no value before the other one. -/
def staysBefore (left right : Json) : Bool :=
  match host.lessThan right left with
  | .ok less => !less
  | .error _ => true

/-- Two or more values are compared with each other, by their primitives. -/
def sortedParents (parents : List Json) : Except JsError (List Json) := do
  if parents.length < 2 then return parents
  else
    let _ ← parents.mapM fun parent => host.toText parent
    return parents.insertionSort fun left right =>
      staysBefore host left right = true

def recomputedSignedHash (record : Json) (parents : List Json) : String :=
  host.sha256 (host.stringify (.object
    (bodyFields record
        ["schemaVersion", "anchoredAt", "tenantId", "chainedRows",
          "chainHead"] ++
      [("parents", .array parents)] ++
      bodyFields record
        ["commitHash", "lamportClock", "prevAnchorHash",
          "signerPublicKey"])))

def signatureBreaks (index : Nat) (record : Json) : List LogBreak :=
  if host.signatureVerifies record then []
  else
    [{ index := index
       anchoredAt := propertyOf record "anchoredAt"
       reason := .dagSignatureInvalid
       detail := "Ed25519 signature does not verify against the embedded " ++
        "signerPublicKey" }]

def checkSignedAnchor (rows : List AuditChainRow) (index : Nat)
    (expectedPrev : JsValue) (record : Json) :
    Except JsError (List LogBreak) := do
  let _ ← properties record
  let parents ← spread (propertyOf record "parents")
  let sorted ← sortedParents host parents
  let link ← linkBreaks host index record expectedPrev
  let history ← historyBreaks host rows index record
  return hashBreaks host index record (recomputedSignedHash host record sorted)
    ++ signatureBreaks host index record ++ link ++ history

def lengthOf : JsValue → Nat
  | some (.array items) => items.length
  | some (.string text) => utf16Length text
  | _ => 0

/-- `items.sort()`, by their texts. -/
def sortedByText (items : List Json) : Except JsError (List Json) := do
  if items.length < 2 then return items
  else
    let texts ← items.mapM fun item => host.toText item
    return ((items.zip texts).insertionSort fun left right =>
      left.2 ≤ right.2).map Prod.fst

/-- `sameSet` -/
def sameParents (parents : JsValue) (expected : List String) :
    Except JsError Bool := do
  if lengthOf parents ≠ expected.length then return false
  else
    let items ← spread parents
    let sorted ← sortedByText host items
    return (sorted.zip (sortedTexts expected)).all fun pair =>
      host.strictEquals (some pair.1) (some (.string pair.2))

def parentBreaks (index : Nat) (record : Json) (expected : List String) :
    Except JsError (List LogBreak) := do
  let same ← sameParents host (propertyOf record "parents") expected
  if same then return []
  else
    let items ← spread (propertyOf record "parents")
    let sorted ← sortedByText host items
    let texts ← host.joinTexts sorted
    return [
      { index := index
        anchoredAt := propertyOf record "anchoredAt"
        reason := .dagParentMismatch
        detail := "anchor parents [" ++ String.intercalate ", " texts ++
          "] != expected [" ++
          String.intercalate ", " (sortedTexts expected) ++ "]" }]

structure SignedAnchorLogResult where
  anchorCount : Nat
  breaks : List LogBreak
  ok : Bool

/-- The last record, with its index, if its parents are to be checked. -/
def lastParentBreaks (anchors : List Json)
    (expectedParents : Option (List String)) :
    Except JsError (List LogBreak) :=
  match expectedParents, anchors.getLast? with
  | some expected, some last =>
      parentBreaks host (anchors.length - 1) last expected
  | _, _ => .ok []

def verifySignedAnchorLog (rows : List AuditChainRow) (log : Option String)
    (expectedParents : Option (List String)) :
    Except JsError SignedAnchorLogResult := do
  let anchors ← readAnchorLines log
  let found ← walkAnchors (checkSignedAnchor host (chainedRowsOf rows)) 0
    (some .null) anchors
  let last ← lastParentBreaks host anchors expectedParents
  return {
    anchorCount := anchors.length
    breaks := found ++ last
    ok := (found ++ last).isEmpty }

end Registrar
