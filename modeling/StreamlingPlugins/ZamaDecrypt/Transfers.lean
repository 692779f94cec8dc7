import StreamlingPlugins.Erc7984.RoundTrip
import StreamlingPlugins.Erc7984.Transform
import StreamlingPlugins.ZamaDecrypt.Decrypt

/-!
# Transfers from decoded events

`decodeBatch` reads transfers from the columns that an upstream decoder appended,
and finds in them exactly the transfers that were decoded.
-/

namespace StreamlingPlugins.ZamaDecrypt

open Arrow
open Erc7984 (Address Alloy Event LogColumns)

def pluginName : String := "zama_decrypt"

/-- Input column names. -/
structure TransferColumns where
  token : String
  fromAddress : String
  toAddress : String
  handle : String

/-- The columns' names when the options do not set them. -/
def TransferColumns.default : TransferColumns :=
  ⟨"erc7984_token", "erc7984_from", "erc7984_to", "erc7984_amount_handle"⟩

section

variable (alloy : Alloy)

def parseAddress (text : String) : Option Address :=
  alloy.parseAddress (String.ofList (trim text.toList))

def decodeRow (row : Nat) (token fromAddress toAddress handle : TextColumn)
    (tokens : Finset Address) : Option DecodedTransfer := do
  let token ← parseAddress alloy (← token.value row)
  if tokens ≠ ∅ ∧ token ∉ tokens then none
  else
    let fromAddress ← parseAddress alloy (← fromAddress.value row)
    let toAddress ← parseAddress alloy (← toAddress.value row)
    let handle ← Erc7984.parseWord alloy (← handle.value row)
    some ⟨token, fromAddress, toAddress, handle⟩

/-- One entry per row; `none` where the row is no transfer of an accepted token, or a
field is null or malformed. -/
def decodeBatch (batch : TextBatch) (columns : TransferColumns) (tokens : Finset Address) :
    Except PluginError (List (Option DecodedTransfer)) := do
  let token ← textColumn batch columns.token pluginName
  let fromAddress ← textColumn batch columns.fromAddress pluginName
  let toAddress ← textColumn batch columns.toAddress pluginName
  let handle ← textColumn batch columns.handle pluginName
  .ok ((List.range batch.numRows).map fun row =>
    decodeRow alloy row token fromAddress toAddress handle tokens)

end

/-- An empty allowlist accepts every token. -/
def Accepts (tokens : Finset Address) (token : Address) : Prop :=
  tokens = ∅ ∨ token ∈ tokens

instance (tokens : Finset Address) (token : Address) : Decidable (Accepts tokens token) :=
  inferInstanceAs (Decidable (_ ∨ _))

/-- The transfer of an event whose token both allowlists accept. -/
def transferOf (tokens tokens' : Finset Address) : Event → Option DecodedTransfer
  | .confidentialTransfer token fromAddress toAddress amountHandle =>
    if Accepts tokens token ∧ Accepts tokens' token then
      some ⟨token, fromAddress, toAddress, amountHandle⟩
    else none
  | _ => none

variable {alloy : Alloy}

theorem parseAddress_formatAddress (lawful : alloy.Lawful) (address : Address) :
    parseAddress alloy (alloy.formatAddress address) = some address := by
  unfold parseAddress
  rw [(lawful.plainAddress address).trim_eq, String.ofList_toList, lawful.address]

/-- An allowlist only withholds events. -/
theorem decodeRow_allowlist (row : Nat) (address : TextColumn) (topics : Erc7984.Topics)
    (data : TextColumn) (tokens : Finset Address) :
    Erc7984.decodeRow alloy row address topics data tokens =
      (Erc7984.decodeRow alloy row address topics data ∅).filter
        fun event => Accepts tokens event.token := by
  ext event
  rw [Option.filter_eq_some_iff, Erc7984.decodeRow_eq_some_iff, Erc7984.decodeRow_eq_some_iff]
  simp only [Erc7984.TokenRead, decide_eq_true_eq]
  constructor
  · rintro ⟨topics_read, ⟨text, shown, parsed, accepted⟩, rest⟩
    exact ⟨⟨topics_read, ⟨text, shown, parsed, .inl trivial⟩, rest⟩, accepted⟩
  · rintro ⟨⟨topics_read, ⟨text, shown, parsed, _⟩, rest⟩, accepted⟩
    exact ⟨topics_read, ⟨text, shown, parsed, accepted⟩, rest⟩

/-- The decoded events of a batch are those without an allowlist that it accepts. -/
theorem decodeBatch_allowlist {batch : TextBatch} {columns : LogColumns} {tokens : Finset Address}
    {events : List (Option Event)}
    (decoded : Erc7984.decodeBatch alloy batch columns tokens = .ok events) :
    ∃ all, Erc7984.decodeBatch alloy batch columns ∅ = .ok all ∧
      events = all.map (Option.filter fun event => Accepts tokens event.token) ∧
      all.length = batch.numRows := by
  unfold Erc7984.decodeBatch at decoded ⊢
  obtain ⟨address, address_eq, decoded⟩ := bind_eq_ok decoded
  obtain ⟨data, data_eq, decoded⟩ := bind_eq_ok decoded
  obtain ⟨topics, topics_eq, decoded⟩ := bind_eq_ok decoded
  cases decoded
  rw [address_eq, data_eq, topics_eq]
  refine ⟨_, rfl, ?_, by simp⟩
  rw [List.map_map]
  exact List.map_congr_left fun row _ => decodeRow_allowlist row address topics data tokens

/-! ## The appended columns -/

theorem outputColumns_notMem {input schema : List String}
    (fresh : Erc7984.outputSchema input = .ok schema) :
    schema = input ++ Erc7984.outputColumns ∧ ∀ name ∈ Erc7984.outputColumns, name ∉ input := by
  unfold Erc7984.outputSchema at fresh
  split at fresh
  · cases fresh
  · rename_i none_found
    cases fresh
    exact ⟨rfl, by simpa using List.find?_eq_none.mp none_found⟩

/-- An appended column is found by its name. -/
theorem textColumn_append {batch output : TextBatch} {schema : List String}
    {events : List (Option Event)}
    (fresh : Erc7984.outputSchema (batch.columns.map Prod.fst) = .ok schema)
    (appended : Erc7984.appendColumns alloy batch schema events = some output) {name : String}
    {i : Nat} (at_i : (name, i) ∈ Erc7984.outputColumns.zipIdx) (plugin : String) :
    textColumn output name plugin = .ok (Erc7984.eventColumn alloy events i) := by
  obtain ⟨rfl, absent⟩ := outputColumns_notMem fresh
  have other : (batch.columns.map Prod.fst).zip (batch.columns.map Prod.snd) = batch.columns :=
    (List.zip_of_prod rfl rfl).symm
  have before : batch.columns.lookup name = none := by
    rw [List.lookup_eq_none_iff]
    rintro ⟨key, column⟩ mem
    have key_mem : key ∈ batch.columns.map Prod.fst := List.mem_map_of_mem mem
    have name_mem := (List.mem_zipIdx' at_i).2
    rw [bne_iff_ne]
    rintro rfl
    exact absent name (name_mem ▸ List.getElem_mem _) key_mem
  have found : (Erc7984.outputColumns.zip ((List.range 10).map fun i =>
      Column.text (Erc7984.eventColumn alloy events i))).lookup name =
      some (.text (Erc7984.eventColumn alloy events i)) := by
    simp only [Erc7984.outputColumns, List.zipIdx_cons, List.zipIdx_nil, List.mem_cons,
      Prod.mk.injEq, List.not_mem_nil, or_false] at at_i
    rcases at_i with ⟨rfl, rfl⟩ | ⟨rfl, rfl⟩ | ⟨rfl, rfl⟩ | ⟨rfl, rfl⟩ | ⟨rfl, rfl⟩ | ⟨rfl, rfl⟩ |
      ⟨rfl, rfl⟩ | ⟨rfl, rfl⟩ | ⟨rfl, rfl⟩ | ⟨rfl, rfl⟩ <;> rfl
  unfold Erc7984.appendColumns at appended
  simp only at appended
  split at appended
  · cases appended
    unfold textColumn TextBatch.column
    simp only
    rw [List.zip_append (by simp), other, List.lookup_append, before, found]
    rfl
  · cases appended

theorem appendColumns_isSome {batch : TextBatch} {schema : List String}
    {events : List (Option Event)}
    (fresh : Erc7984.outputSchema (batch.columns.map Prod.fst) = .ok schema)
    (rows : events.length = batch.numRows) :
    ∃ output, Erc7984.appendColumns alloy batch schema events = some output ∧
      output.numRows = batch.numRows := by
  obtain ⟨rfl, _⟩ := outputColumns_notMem fresh
  unfold Erc7984.appendColumns
  rw [if_pos ⟨by simp [Erc7984.outputColumns], rows⟩]
  exact ⟨_, rfl, rfl⟩

theorem value_eventColumn {events : List (Option Event)} {row : Nat} {event : Option Event}
    (at_row : events[row]? = some event) (i : Nat) :
    (Erc7984.eventColumn alloy events i).value row = (Erc7984.eventRow alloy event)[i]?.join := by
  simp [Erc7984.eventColumn, TextColumn.value, at_row]

/-- A row reads back as the transfer of its event. -/
theorem decodeRow_eventColumn (lawful : alloy.Lawful) {events : List (Option Event)} {row : Nat}
    {event : Option Event} (at_row : events[row]? = some event) (tokens : Finset Address) :
    decodeRow alloy row (Erc7984.eventColumn alloy events 1) (Erc7984.eventColumn alloy events 2)
      (Erc7984.eventColumn alloy events 3) (Erc7984.eventColumn alloy events 4) tokens =
        event.bind (transferOf ∅ tokens) := by
  have refused {token : Address} :
      (tokens ≠ ∅ ∧ token ∉ tokens) ↔ ¬ (Accepts ∅ token ∧ Accepts tokens token) := by
    simp [Accepts]
  unfold decodeRow
  simp only [value_eventColumn at_row]
  cases event with
  | none => rfl
  | some event =>
      cases event with
      | confidentialTransfer token fromAddress toAddress amountHandle =>
          simp only [Erc7984.eventRow, Erc7984.Event.token, List.getElem?_cons_succ,
            List.getElem?_cons_zero, Option.join_some, Option.bind_some, Option.bind_eq_bind,
            parseAddress_formatAddress lawful, Erc7984.parseWord_formatWord lawful, refused,
            transferOf, ite_not]
      | operatorSet token holder operator untilTime =>
          simp [Erc7984.eventRow, transferOf]
      | amountDisclosed token encryptedAmount amount =>
          simp [Erc7984.eventRow, transferOf]

/-- Withheld events are no transfers. -/
theorem bind_transferOf (tokens tokens' : Finset Address) (event : Option Event) :
    (event.filter fun event => Accepts tokens event.token).bind (transferOf ∅ tokens') =
      event.bind (transferOf tokens tokens') := by
  have all (token : Address) : Accepts ∅ token := .inl rfl
  cases event with
  | none => rfl
  | some event =>
      by_cases accepted : Accepts tokens event.token
      · rw [Option.filter_some_pos (by simpa using accepted)]
        cases event <;> simp_all [transferOf, Erc7984.Event.token]
      · rw [Option.filter_some_neg (by simpa using accepted)]
        cases event <;> simp_all [transferOf, Erc7984.Event.token]

/-- Reading the appended columns finds a transfer exactly in the rows whose log decodes
to one of a token that both allowlists accept, and it is that of the event. -/
theorem decodeBatch_appendColumns (lawful : alloy.Lawful) {batch : TextBatch}
    {columns : LogColumns} {tokens tokens' : Finset Address} {schema : List String}
    {events : List (Option Event)}
    (fresh : Erc7984.outputSchema (batch.columns.map Prod.fst) = .ok schema)
    (decoded : Erc7984.decodeBatch alloy batch columns tokens = .ok events) :
    ∃ all output, Erc7984.decodeBatch alloy batch columns ∅ = .ok all ∧
      all.length = batch.numRows ∧
      Erc7984.appendColumns alloy batch schema events = some output ∧
      decodeBatch alloy output .default tokens' =
        .ok (all.map fun event => event.bind (transferOf tokens tokens')) := by
  obtain ⟨all, all_eq, rfl, rows⟩ := decodeBatch_allowlist decoded
  obtain ⟨output, appended, output_rows⟩ := appendColumns_isSome fresh
    ((List.length_map _).trans rows)
  refine ⟨all, output, all_eq, rows, appended, ?_⟩
  have column (name : String) (i : Nat) (at_i : (name, i) ∈ Erc7984.outputColumns.zipIdx) :=
    textColumn_append fresh appended at_i pluginName
  have token := column "erc7984_token" 1 (by decide)
  have fromAddress := column "erc7984_from" 2 (by decide)
  have toAddress := column "erc7984_to" 3 (by decide)
  have handle := column "erc7984_amount_handle" 4 (by decide)
  unfold decodeBatch TransferColumns.default
  rw [token, fromAddress, toAddress, handle, output_rows, ← rows]
  refine congrArg Except.ok ?_
  refine List.ext_getElem (by simp) fun row bound bound' => ?_
  rw [List.getElem_map, List.getElem_map, List.getElem_range,
    decodeRow_eventColumn lawful (List.getElem?_eq_getElem (by simpa using bound')),
    List.getElem_map, bind_transferOf]

/-! ### Logs of events -/

def logColumns : LogColumns :=
  ⟨"address", .separate "topic0" "topic1" "topic2" "topic3", "data"⟩

def topicColumn (alloy : Alloy) (events : List (Option Event)) (i : Nat) : TextColumn :=
  events.map fun event => event.bind fun event => event.topics[i]?.map alloy.formatWord

/-- A log of every event; a row without one is null. -/
def logBatch (alloy : Alloy) (events : List (Option Event)) : TextBatch where
  numRows := events.length
  columns :=
    [("address", .text (events.map (Option.map fun event => alloy.formatAddress event.token))),
      ("topic0", .text (topicColumn alloy events 0)),
      ("topic1", .text (topicColumn alloy events 1)),
      ("topic2", .text (topicColumn alloy events 2)),
      ("topic3", .text (topicColumn alloy events 3)),
      ("data", .text (events.map fun event => event.bind fun event =>
        event.data.map alloy.formatWord))]

theorem value_map {events : List (Option Event)} {row : Nat} {event : Option Event}
    (at_row : events[row]? = some event) (cell : Option Event → Option String) :
    TextColumn.value (events.map cell) row = cell event := by
  simp [TextColumn.value, at_row]

theorem topics_writes {events : List (Option Event)} {row : Nat} {event : Event}
    (at_row : events[row]? = some (some event)) :
    (Erc7984.Topics.separate (topicColumn alloy events 0) (topicColumn alloy events 1)
      (topicColumn alloy events 2) (topicColumn alloy events 3)).Writes alloy row
        event.topics := by
  simp only [Erc7984.Topics.Writes, topicColumn, value_map at_row]
  cases event with
  | confidentialTransfer => exact ⟨[], rfl, nofun⟩
  | operatorSet => exact ⟨[none], rfl, by decide⟩
  | amountDisclosed => exact ⟨[none, none], rfl, by decide⟩

/-- Logs decode to the events that an allowlist accepts. -/
theorem decodeBatch_logBatch (lawful : alloy.Lawful) {events : List (Option Event)}
    (fits : ∀ event, some event ∈ events → event.Fits) (tokens : Finset Address) :
    Erc7984.decodeBatch alloy (logBatch alloy events) logColumns tokens =
      .ok (events.map (Option.filter fun event => Accepts tokens event.token)) := by
  refine congrArg Except.ok (List.ext_getElem (by simp [logBatch]) fun row bound bound' => ?_)
  have within : row < events.length := by simpa using bound'
  have at_row : events[row]? = some events[row] := List.getElem?_eq_getElem within
  rw [List.getElem_map, List.getElem_map, List.getElem_range, decodeRow_allowlist]
  refine congrArg (Option.filter _) ?_
  cases found : events[row] with
  | none =>
      rw [found] at at_row
      simp [Erc7984.decodeRow, Erc7984.Topics.row, topicColumn, value_map at_row,
        Erc7984.separateTopics]
  | some event =>
      rw [found] at at_row
      have listed : some event ∈ events := found ▸ List.getElem_mem _
      have some_topic : event.topics ≠ [] := by cases event <;> exact List.cons_ne_nil _ _
      refine Erc7984.decodeRow_eq_some_iff.mpr
        ⟨Erc7984.Topics.row_written lawful some_topic (topics_writes at_row),
          ⟨alloy.formatAddress event.token, ?_, ?_, .inl rfl⟩, fun word own => ?_,
          fits event listed⟩
      · rw [value_map at_row]
        rfl
      · exact parseAddress_formatAddress lawful _
      · refine ⟨alloy.formatWord word, ?_, Erc7984.parseWord_formatWord lawful word⟩
        rw [value_map at_row, Option.bind_some, own]
        rfl

/-- A transfer by token 0, a disclosed amount, no event, and a transfer by token 9. -/
def demoEvents : List (Option Event) :=
  [some (.confidentialTransfer 0 1 2 3), some (.amountDisclosed 0 3 7), none,
    some (.confidentialTransfer 9 1 2 4)]

/-- The transfer of the accepted token is found, and nothing else is. -/
theorem decodeBatch_appendColumns_demo :
    ∃ output, Erc7984.appendColumns Erc7984.hexAlloy (logBatch Erc7984.hexAlloy demoEvents)
        (["address", "topic0", "topic1", "topic2", "topic3", "data"] ++ Erc7984.outputColumns)
        demoEvents = some output ∧
      decodeBatch Erc7984.hexAlloy output .default {0} =
        .ok [some ⟨0, 1, 2, 3⟩, none, none, none] := by
  have fits : ∀ event, some event ∈ demoEvents → event.Fits := by
    simp [demoEvents, Event.Fits]
  have upstream := decodeBatch_logBatch Erc7984.hexAlloy_lawful fits {0, 9}
  have every := decodeBatch_logBatch Erc7984.hexAlloy_lawful fits ∅
  have shown : demoEvents.map (Option.filter fun event => Accepts {0, 9} event.token) =
      demoEvents := by decide
  have unfiltered : demoEvents.map (Option.filter fun event => Accepts ∅ event.token) =
      demoEvents := by decide
  rw [shown] at upstream
  rw [unfiltered] at every
  obtain ⟨all, output, all_eq, -, appended, read⟩ :=
    decodeBatch_appendColumns Erc7984.hexAlloy_lawful (by rfl) upstream
  rw [every] at all_eq
  cases all_eq
  exact ⟨output, appended, read⟩

end StreamlingPlugins.ZamaDecrypt
