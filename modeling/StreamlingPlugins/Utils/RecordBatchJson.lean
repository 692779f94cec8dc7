import StreamlingPlugins.Utils.DecimalArb

/-!
# Record batches as lines of JSON

A batch with its `decimal_arb` leaves as text is written as one JSON object and a newline for
each row, and the buffer is split at the newlines.
-/

namespace StreamlingPlugins.Utils

open Arrow

def newline : UInt8 := 10

structure JsonLibrary (D : Type) extends DecimalLibrary D where
  /-- `upgrade_legacy_wide_int_batch` -/
  upgradeLegacyWideIntBatch : BufferedBatch D → Except String (Option (BufferedBatch D))
  upgraded : ∀ {batch batch'}, upgradeLegacyWideIntBatch batch = .ok (some batch') →
    batch.WellFormed → batch'.WellFormed ∧ batch'.numRows = batch.numRows
  /-- The object that arrow_json writes of a row's values by name. -/
  object : List (String × Value D) → List UInt8
  object_ne_nil : ∀ row, object row ≠ []
  newline_not_mem : ∀ row, newline ∉ object row

section

variable {D : Type}

/-- The batch with its columns of the retired wide integer types as `decimal_arb`. -/
def current (lib : JsonLibrary D) (batch : BufferedBatch D) : Except String (BufferedBatch D) :=
  (lib.upgradeLegacyWideIntBatch batch).map fun upgraded => upgraded.getD batch

def decimalArbColumnsAsText (lib : JsonLibrary D) (batch : BufferedBatch D) :
    Except ArrowError (BufferedBatch D) := do
  let batch ← (current lib batch).mapError ArrowError.invalidArgumentError
  if !anyHoldsDecimalArb lib.toDecimalLibrary batch.fields then return batch
  let columns ← columnsAsText lib.toDecimalLibrary batch.columns
  (BufferedBatch.tryNew columns.1 columns.2).mapError ArrowError.rejected

/-- What `LineDelimitedWriter` writes. -/
def writeLines (lib : JsonLibrary D) (batch : BufferedBatch D) : List UInt8 :=
  (List.range batch.numRows).flatMap fun i => lib.object (batch.columns.entries i) ++ [newline]

/-- Convert a RecordBatch to newline-delimited JSON, one JSON object per row. -/
def recordBatchToLineDelimitedJson (lib : JsonLibrary D) (batch : BufferedBatch D) :
    Except ArrowError (List (List UInt8)) := do
  let transformed ← decimalArbColumnsAsText lib batch
  return ((writeLines lib transformed).splitOn newline).filter fun line => !line.isEmpty

end

end StreamlingPlugins.Utils
