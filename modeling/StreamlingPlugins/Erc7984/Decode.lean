import StreamlingPlugins.Arrow.TextColumn
import StreamlingPlugins.Text

/-!
# Decoding ERC-7984 logs

`decodeBatch` reads the three ERC-7984 events from raw logs: the emitting
contract, up to four topics and the hex string of the other parameters.  Reading
and writing the hex of words and addresses is a parameter.
-/

namespace StreamlingPlugins.Erc7984

open Arrow

/-- A 32-byte word, big-endian. -/
abbrev B256 := BitVec 256

abbrev Address := BitVec 160

/-- Hex text of words and addresses. -/
structure Alloy where
  parseWord : String → Option B256
  parseAddress : String → Option Address
  formatWord : B256 → String
  formatAddress : Address → String

def pluginName : String := "erc7984_decode"

def confidentialTransferTopic : B256 :=
  0x67500e8d0ed826d2194f514dd0d8124f35648ab6e3fb5e6ed867134cffe661e9#256

def operatorSetTopic : B256 :=
  0x921a218a75d18e8ec5704851e6b234a85725b21a2521ce889622c35dedc1fa12#256

def amountDisclosedTopic : B256 :=
  0x83bbbc07896439e5d950a6cead04cbc676180af7a61cecf43f5296475057f571#256

inductive Event
  | confidentialTransfer (token fromAddress toAddress : Address) (amountHandle : B256)
  | operatorSet (token holder operator : Address) (untilTime : BitVec 64)
  | amountDisclosed (token : Address) (encryptedAmount : B256) (amount : BitVec 64)
  deriving DecidableEq

def Event.token : Event → Address
  | .confidentialTransfer token _ _ _ => token
  | .operatorSet token _ _ _ => token
  | .amountDisclosed token _ _ => token

/-! ## Topics -/

inductive TopicColumns
  | separate (t0 t1 t2 t3 : String)
  | joined (name : String)

structure LogColumns where
  address : String
  topics : TopicColumns
  data : String

inductive Topics
  | separate (t0 t1 t2 t3 : TextColumn)
  | joined (column : TextColumn)
  | list (array : ListColumn)
  | largeList (array : ListColumn)
  deriving DecidableEq

def isBlank (text : String) : Bool :=
  trim text.toList = []

def isQuote (c : Char) : Bool :=
  c = '"' || c = '\''

/-- The parts of a joined string, without blanks and quotes around them. -/
def joinedParts (text : String) : List String :=
  let body := trimEndMatches (· = ']') ((trim text.toList).dropWhile (· = '['))
  (split ',' body).map fun part => String.ofList (trimMatches isQuote (trim part))

/-- The parts that are not empty. -/
def topicParts (text : String) : List String :=
  (joinedParts text).filter (· ≠ "")

section

variable (alloy : Alloy)

def parseWord (text : String) : Option B256 :=
  alloy.parseWord (String.ofList (trim text.toList))

/-- The words of the columns before the first null or blank one. -/
def separateTopics : List (Option String) → Option (List B256)
  | [] => some []
  | cell :: cells =>
    match cell.filter fun text => !isBlank text with
    | some text => do
      let word ← parseWord alloy text
      let words ← separateTopics cells
      some (word :: words)
    | none => some []

def listTopics (values : TextColumn) : Option (List B256) :=
  values.mapM fun cell => cell.bind (parseWord alloy)

def splitTopics (text : String) : Option (List B256) :=
  (topicParts text).mapM (parseWord alloy)

def ListColumn.topics (array : ListColumn) (row : Nat) : Option (List B256) :=
  match array with
  | .text rows =>
    match rows[row]?.join with
    | none => some []
    | some values => listTopics alloy values
  | .other valid => if valid[row]?.getD false then none else some []

/-- `Topics::row`. -/
def Topics.row (topics : Topics) (row : Nat) : Option (List B256) :=
  match topics with
  | .separate t0 t1 t2 t3 =>
    separateTopics alloy [t0.value row, t1.value row, t2.value row, t3.value row]
  | .joined column => (column.value row).bind (splitTopics alloy)
  | .list array => ListColumn.topics alloy array row
  | .largeList array => ListColumn.topics alloy array row

def Topics.fromBatch (batch : TextBatch) (columns : TopicColumns) : Except PluginError Topics :=
  match columns with
  | .separate t0 t1 t2 t3 => do
    let c0 ← textColumn batch t0 pluginName
    let c1 ← textColumn batch t1 pluginName
    let c2 ← textColumn batch t2 pluginName
    let c3 ← textColumn batch t3 pluginName
    .ok (.separate c0 c1 c2 c3)
  | .joined name =>
    match batch.column name with
    | none => .error (.execution (pluginName ++ ": missing column '" ++ name ++ "'"))
    | some (.list false array _) => .ok (.list array)
    | some (.list true array _) => .ok (.largeList array)
    | some (.text values) => .ok (.joined values)
    | some (.other dataType) => .error (.execution (pluginName ++ ": column '" ++ name ++
        "' must be a string column or a list of strings, got " ++ dataType))

/-! ## Rows -/

/-- The address in a word padded with twelve zero bytes. -/
def wordToAddress (word : B256) : Option Address :=
  if word.extractLsb' 160 96 = 0#96 then some (word.setWidth 160) else none

/-- The value of a word that is at most `bits` and 64 bits wide. -/
def wordToUint (word : B256) (bits : Nat) : Option (BitVec 64) :=
  if word.toNat < 2 ^ 64 then
    let value := word.setWidth 64
    if 64 ≤ bits ∨ value >>> bits = 0#64 then some value else none
  else none

def decodeRow (row : Nat) (address : TextColumn) (topics : Topics) (data : TextColumn)
    (tokens : Finset Address) : Option Event := do
  let topics ← topics.row alloy row
  let selector ← topics.head?
  if selector ≠ confidentialTransferTopic ∧ selector ≠ operatorSetTopic ∧
      selector ≠ amountDisclosedTopic then
    none
  else
    let text ← address.value row
    let token ← alloy.parseAddress (String.ofList (trim text.toList))
    if tokens ≠ ∅ ∧ token ∉ tokens then none
    else if selector = confidentialTransferTopic then
      match topics with
      | [_, t1, t2, t3] => do
        let fromAddress ← wordToAddress t1
        let toAddress ← wordToAddress t2
        some (.confidentialTransfer token fromAddress toAddress t3)
      | _ => none
    else if selector = operatorSetTopic then
      match topics with
      | [_, t1, t2] => do
        let holder ← wordToAddress t1
        let operator ← wordToAddress t2
        let untilTime ← wordToUint (← parseWord alloy (← data.value row)) 48
        some (.operatorSet token holder operator untilTime)
      | _ => none
    else
      match topics with
      | [_, t1] => do
        let amount ← wordToUint (← parseWord alloy (← data.value row)) 64
        some (.amountDisclosed token t1 amount)
      | _ => none

/-- One entry per row; `none` where the row is no event of an accepted token. -/
def decodeBatch (batch : TextBatch) (columns : LogColumns) (tokens : Finset Address) :
    Except PluginError (List (Option Event)) := do
  let address ← textColumn batch columns.address pluginName
  let data ← textColumn batch columns.data pluginName
  let topics ← Topics.fromBatch batch columns.topics
  .ok ((List.range batch.numRows).map fun row => decodeRow alloy row address topics data tokens)

end

end StreamlingPlugins.Erc7984
