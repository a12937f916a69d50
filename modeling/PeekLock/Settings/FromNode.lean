import PeekLock.Decimal.Double
import PeekLock.Decimal.Rounded
import PeekLock.Settings.Basic
import PeekLock.Settings.Mismatch
import PeekLock.Text.LowerCase

/-!
# PeekLock.Settings.FromNode

Settings read from a tree.

Scalars are converted generously.  A text setting takes numbers and truth
values too, as they are printed.  A number takes texts that spell one and
the words `true`, `on`, `yes`, `false`, `off` and `no`; an integer takes
doubles, rounded.  Null leaves a setting unset.

A section is a table, whose unknown keys do not matter, or a list that
holds every field in order.
-/

namespace PeekLock.Settings

/-- A value that a setting cannot take, before it is known for which key. -/
structure Refusal where
  found : Found
  wanted : Wanted
  source? : Option Source

/-- The refusal of a node. -/
def refuse {α : Type} (n : Node) (wanted : Wanted) : Except Refusal α :=
  .error ⟨.ofNode n, wanted, match n with
    | .scalar source? _ | .list source? _ | .table source? _ => source?⟩

/-! ## Conversions -/

/-- The truth value that a word stands for. -/
def truthOfWord (s : String) : Option Bool :=
  let word := Text.lowerCase s
  if word = "true" || word = "on" || word = "yes" then some true
  else if word = "false" || word = "off" || word = "no" then some false
  else none

/-- A text setting. -/
def textOf (n : Node) : Except Refusal String :=
  match n with
  | .scalar _ (.text s) => .ok s
  | .scalar _ (.bool b) => .ok (toString b)
  | .scalar _ (.integer i) => .ok (toString i)
  | .scalar _ (.real x) => .ok (Decimal.plain x)
  | _ => refuse n .text

/-- An integer between `low` and `high`; `spelled?` reads one from a text, and
`bounded` is what is asked for when a number is out of range. -/
def integerOf (low high : Int) (bounded : Wanted) (spelled? : List Char → Option Int) (n : Node) :
    Except Refusal Int :=
  match n with
  | .scalar _ (.integer i) => if low ≤ i && i ≤ high then .ok i else refuse n bounded
  | .scalar _ (.bool b) => .ok (if b then 1 else 0)
  | .scalar _ (.real x) => .ok (Decimal.clampRound low high x)
  | .scalar _ (.text s) =>
    match truthOfWord s with
    | some b => .ok (if b then 1 else 0)
    | none =>
      match spelled? s.toList with
      | some i => .ok i
      | none => refuse n .integer
  | _ => refuse n .integer

/-- A signed integer of 64 bits. -/
def signedOf (n : Node) : Except Refusal Int :=
  integerOf (-(Decimal.maxI64 : Int) - 1) Decimal.maxI64 .signed (Decimal.int? Decimal.maxI64) n

/-- An unsigned integer of 64 bits. -/
def unsignedOf (n : Node) : Except Refusal Nat :=
  (integerOf 0 Decimal.maxU64 .unsigned
    (fun cs => (Decimal.nat? Decimal.maxU64 cs).map Int.ofNat) n).map Int.toNat

/-- An unsigned integer of 32 bits. -/
def unsigned32Of (n : Node) : Except Refusal Nat :=
  (unsignedOf n).bind fun i =>
    if i ≤ Decimal.maxU32 then .ok i else .error ⟨.unsigned i, .unsigned32, none⟩

/-- A double. -/
def realOf (n : Node) : Except Refusal Float :=
  match n with
  | .scalar _ (.real x) => .ok x
  | .scalar _ (.integer i) => .ok (Decimal.ofInt i)
  | .scalar _ (.bool b) => .ok (if b then 1 else 0)
  | .scalar _ (.text s) =>
    match truthOfWord s with
    | some b => .ok (if b then 1 else 0)
    | none =>
      match Decimal.double? s.toList with
      | some x => .ok x
      | none => refuse n .real
  | _ => refuse n .real

/-- A setting that null leaves unset. -/
def unlessNull {α : Type} (convert : Node → Except Refusal α) (n : Node) :
    Except Refusal (Option α) :=
  match n with
  | .scalar _ .null => .ok none
  | _ => (convert n).map some

/-! ## Sections -/

/-- A setting of a section that is kept in `σ`. -/
structure Entry (σ : Type) where
  key : String
  read : σ → Node → Except Refusal σ

/-- A setting whose converted value is stored by `keep`. -/
def Entry.of {σ α : Type} (key : String) (convert : Node → Except Refusal α)
    (keep : σ → Option α → σ) : Entry σ :=
  ⟨key, fun s n => (unlessNull convert n).map (keep s)⟩

/-- The kind of a section: what it is called in messages, and its settings. -/
structure Shape (σ : Type) where
  name : String
  fields : List (Entry σ)

/-- Gives a refusal its key. -/
def Refusal.at (r : Refusal) (key : String) : Mismatch := .setting r.found r.wanted key r.source?

/-- A section in a table. -/
def readTable {σ : Type} (key : String) (entries : List (String × Node)) :
    List (Entry σ) → σ → Except Mismatch σ
  | [], s => .ok s
  | field :: fields, s =>
    match Node.find field.key entries with
    | none => readTable key entries fields s
    | some n =>
      match field.read s n with
      | .ok s => readTable key entries fields s
      | .error r => .error (r.at s!"{key}.{field.key}")

/-- A section in a list. -/
def readList {σ : Type} (shape : Shape σ) (key : String) :
    (place : Nat) → List (Entry σ) → List Node → σ → Except Mismatch σ
  | _, [], _, s => .ok s
  | place, _ :: _, [], _ => .error (.sectionLength place shape.name shape.fields.length key)
  | place, field :: fields, n :: items, s =>
    match field.read s n with
    | .ok s => readList shape key (place + 1) fields items s
    | .error r => .error (r.at s!"{key}[{place}]")

/-- The section of a key; one that is missing is left as it is. -/
def section? {σ : Type} (shape : Shape σ) (key : String) (root : Node) (s : σ) :
    Except Mismatch σ :=
  match root.child? key with
  | none => .ok s
  | some (.table _ entries) => readTable key entries shape.fields s
  | some (.list _ items) => readList shape key 0 shape.fields items s
  | some n => .error (.sectionKind (.ofNode n) shape.name key)

/-- The section about the service. -/
def appShape : Shape AppSettings := ⟨"AppInfoConfig", [
  .of "name" textOf fun s v => { s with name? := v },
  .of "version" textOf fun s v => { s with version? := v },
  .of "environment" textOf fun s v => { s with environment? := v }]⟩

/-- The section about the bus. -/
def busShape : Shape BusSettings := ⟨"ServicebusConfig", [
  .of "connection_string" textOf fun s v => { s with connectionString? := v },
  .of "queue" textOf fun s v => { s with queue? := v },
  .of "topic" textOf fun s v => { s with topic? := v },
  .of "subscription" textOf fun s v => { s with subscription? := v },
  .of "concurrency" signedOf fun s v => { s with concurrency? := v },
  .of "max_messages" signedOf fun s v => { s with maxMessages? := v },
  .of "receive_timeout_secs" unsignedOf fun s v => { s with receiveTimeoutSecs? := v },
  .of "shutdown_timeout_secs" unsignedOf fun s v => { s with shutdownTimeoutSecs? := v },
  .of "receive_error_backoff_ms" unsignedOf fun s v => { s with receiveErrorBackoffMs? := v }]⟩

/-- The section about logging. -/
def loggingShape : Shape LoggingSettings := ⟨"LoggingConfig", [
  .of "level" textOf fun s v => { s with level? := v },
  .of "file" textOf fun s v => { s with file? := v }]⟩

/-- The section about connecting. -/
def retryShape : Shape RetrySettings := ⟨"RetrySettings", [
  .of "max_attempts" unsigned32Of fun s v => { s with maxAttempts? := v },
  .of "initial_delay_ms" unsignedOf fun s v => { s with initialDelayMs? := v },
  .of "max_delay_ms" unsignedOf fun s v => { s with maxDelayMs? := v },
  .of "multiplier" realOf fun s v => { s with multiplier? := v }]⟩

/-- The settings that a tree holds. -/
def ofNode (root : Node) : Except Mismatch Settings := do
  let app ← section? appShape "app" root {}
  let bus ← section? busShape "servicebus" root {}
  let logging ← section? loggingShape "logging" root {}
  let retry ← section? retryShape "retry" root {}
  return { app, bus, logging, retry }

end PeekLock.Settings
