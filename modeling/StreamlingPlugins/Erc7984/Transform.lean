import StreamlingPlugins.Erc7984.Decode

/-!
# Appended columns

`appendColumns` writes the decoded events to ten text columns after a batch's own.
-/

namespace StreamlingPlugins.Erc7984

open Arrow

/-- Appended to every row; all null when the row is not an ERC-7984 event. -/
def outputColumns : List String :=
  ["erc7984_event", "erc7984_token", "erc7984_from", "erc7984_to", "erc7984_amount_handle",
    "erc7984_holder", "erc7984_operator", "erc7984_until", "erc7984_encrypted_amount",
    "erc7984_amount"]

def outputSchema (input : List String) : Except String (List String) :=
  match outputColumns.find? (· ∈ input) with
  | some name => .error ("input already has a '" ++ name ++ "' column")
  | none => .ok (input ++ outputColumns)

def Event.name : Event → String
  | .confidentialTransfer _ _ _ _ => "ConfidentialTransfer"
  | .operatorSet _ _ _ _ => "OperatorSet"
  | .amountDisclosed _ _ _ => "AmountDisclosed"

section

variable (alloy : Alloy)

/-- The cells of the ten columns. -/
def eventRow : Option Event → List (Option String)
  | none => [none, none, none, none, none, none, none, none, none, none]
  | some event =>
    some event.name :: some (alloy.formatAddress event.token) ::
      match event with
      | .confidentialTransfer _ fromAddress toAddress amountHandle =>
        [some (alloy.formatAddress fromAddress), some (alloy.formatAddress toAddress),
          some (alloy.formatWord amountHandle), none, none, none, none, none]
      | .operatorSet _ holder operator untilTime =>
        [none, none, none, some (alloy.formatAddress holder), some (alloy.formatAddress operator),
          some (toString untilTime.toNat), none, none]
      | .amountDisclosed _ encryptedAmount amount =>
        [none, none, none, none, none, none, some (alloy.formatWord encryptedAmount),
          some (toString amount.toNat)]

/-- One of the ten columns. -/
def eventColumn (events : List (Option Event)) (i : Nat) : TextColumn :=
  events.map fun event => (eventRow alloy event)[i]?.join

/-- The batch with the ten columns; `none` where `RecordBatch::try_new` refuses a column. -/
def appendColumns (batch : TextBatch) (schema : List String) (events : List (Option Event)) :
    Option TextBatch :=
  let columns := batch.columns.map Prod.snd ++
    (List.range 10).map fun i => .text (eventColumn alloy events i)
  if schema.length = columns.length ∧ events.length = batch.numRows then
    some ⟨batch.numRows, schema.zip columns⟩
  else none

end

end StreamlingPlugins.Erc7984
