import StreamlingPlugins.Utils.RecordBatchJson

/-!
# What the lines of a batch should be

The exact text of a value replaces its `decimal_arb` leaves and nothing else.  A batch may be
refused for a leaf under a container that is not rebuilt, or for bytes that are not valid.
What else goes wrong comes from lists of size 0: without a null buffer they are rebuilt with no
slots at all, and an array above them is then emptied too or refused.
-/

namespace StreamlingPlugins.Utils

open Arrow

/-! ## Exact text -/

section

variable {D : Type}

/-- A value with the values of its fields replaced. -/
def onStruct (f : List (String × Value D) → List (String × Value D)) : Value D → Value D
  | .struct values => .struct (f values)
  | value => value

def onList (f : Value D → Value D) : Value D → Value D
  | .list values => .list (values.map f)
  | value => value

def onMap (f : Value D → Value D) : Value D → Value D
  | .map entries => .map (entries.map f)
  | value => value

def onDatum (f : D → D) : Value D → Value D
  | .datum x => .datum (f x)
  | value => value

mutual

/-- A value of a type with its leaves as exact text. -/
def typeText (lib : DecimalLibrary D) : DataType → Value D → Value D
  | .struct children, value => onStruct (columnsText lib children) value
  | .list c, value | .largeList c, value | .fixedSizeList c _, value =>
    onList (fieldText lib c) value
  | .map c _, value => onMap (fieldText lib c) value
  | _, value => value

def fieldText (lib : DecimalLibrary D) : Field → Value D → Value D
  | .mk name dataType nullable metadata, value =>
    if lib.isDecimalArbField (.mk name dataType nullable metadata) then
      onDatum (lib.text (.mk name dataType nullable metadata)) value
    else typeText lib dataType value

def columnsText (lib : DecimalLibrary D) :
    Fields → List (String × Value D) → List (String × Value D)
  | .cons head tail, (name, value) :: values =>
    (name, fieldText lib head value) :: columnsText lib tail values
  | .cons _ _, [] => []
  | .nil, values => values

end

/-! ## Leaves under other containers -/

mutual

/-- Whether a type has a leaf at any depth, under any container. -/
def leafWithin (lib : DecimalLibrary D) : DataType → Bool
  | .list c | .largeList c | .listView c | .largeListView c | .fixedSizeList c _ | .map c _ =>
    fieldLeafWithin lib c
  | .struct children | .union _ children _ => anyLeafWithin lib children
  | .dictionary key value => leafWithin lib key || leafWithin lib value
  | .runEndEncoded runEnds values => fieldLeafWithin lib runEnds || fieldLeafWithin lib values
  | _ => false

def fieldLeafWithin (lib : DecimalLibrary D) : Field → Bool
  | .mk name dataType nullable metadata =>
    lib.isDecimalArbField (.mk name dataType nullable metadata) || leafWithin lib dataType

def anyLeafWithin (lib : DecimalLibrary D) : Fields → Bool
  | .nil => false
  | .cons head tail => fieldLeafWithin lib head || anyLeafWithin lib tail

end

mutual

/-- Whether a leaf of a type sits under a container other than structs, lists, large lists,
fixed-size lists and maps. -/
def leafOutside (lib : DecimalLibrary D) : DataType → Bool
  | .struct children => anyLeafOutside lib children
  | .list c | .largeList c | .fixedSizeList c _ | .map c _ => fieldLeafOutside lib c
  | .listView c | .largeListView c => fieldLeafWithin lib c
  | .union _ children _ => anyLeafWithin lib children
  | .dictionary key value => leafWithin lib key || leafWithin lib value
  | .runEndEncoded runEnds values => fieldLeafWithin lib runEnds || fieldLeafWithin lib values
  | _ => false

def fieldLeafOutside (lib : DecimalLibrary D) : Field → Bool
  | .mk name dataType nullable metadata =>
    !lib.isDecimalArbField (.mk name dataType nullable metadata) && leafOutside lib dataType

def anyLeafOutside (lib : DecimalLibrary D) : Fields → Bool
  | .nil => false
  | .cons head tail => fieldLeafOutside lib head || anyLeafOutside lib tail

end

/-! ## Leaves that cannot be read -/

/-- A field that is no leaf and has some. -/
def isRebuilt (lib : DecimalLibrary D) (field : Field) : Bool :=
  !lib.isDecimalArbField field && nestsDecimalArb lib field.dataType

/-- Whether a field's leaf cannot be read, given whether one in it cannot. -/
def unreadableIn (lib : DecimalLibrary D) (field : Field)
    (array : BufferedArray D field.dataType) (within : Bool) : Bool :=
  lib.isDecimalArbField field && !(decimalArbText lib field array).isOk ||
    isRebuilt lib field && within

mutual

/-- Whether the bytes of a leaf in a container are not valid. -/
def unreadable (lib : DecimalLibrary D) {t : DataType} : BufferedArray D t → Bool
  | .leaf _ _ => false
  | .struct _ columns _ => anyUnreadable lib columns
  | @BufferedArray.list _ c _ values _ => unreadableIn lib c values (unreadable lib values)
  | @BufferedArray.largeList _ c _ values _ => unreadableIn lib c values (unreadable lib values)
  | @BufferedArray.fixedSizeList _ c _ _ values _ =>
    unreadableIn lib c values (unreadable lib values)
  | @BufferedArray.map _ c _ _ entries _ => unreadableIn lib c entries (unreadable lib entries)

def anyUnreadable (lib : DecimalLibrary D) {fields : Fields} : BufferedColumns D fields → Bool
  | .nil => false
  | @BufferedColumns.cons _ c _ values columns =>
    unreadableIn lib c values (unreadable lib values) || anyUnreadable lib columns

end

/-! ## Lists of size 0 -/

mutual

/-- Without a null buffer, rebuilt lists of size 0 have no slots left, and then so have the lists
and structs that take their length from them. -/
def emptied (lib : DecimalLibrary D) {t : DataType} : BufferedArray D t → Bool
  | .struct _ columns nulls => nulls.isNone && allEmptied lib columns
  | @BufferedArray.fixedSizeList _ c size length values nulls =>
    nulls.isNone && if size = 0 then 0 < length else isRebuilt lib c && emptied lib values
  | .leaf _ _ | .list _ _ _ | .largeList _ _ _ | .map _ _ _ => false

def allEmptied (lib : DecimalLibrary D) {fields : Fields} : BufferedColumns D fields → Bool
  | .nil => true
  | @BufferedColumns.cons _ c _ values columns =>
    isRebuilt lib c && emptied lib values && allEmptied lib columns

end

def anyEmptied (lib : DecimalLibrary D) {fields : Fields} : BufferedColumns D fields → Bool
  | .nil => false
  | @BufferedColumns.cons _ c _ values columns =>
    isRebuilt lib c && emptied lib values || anyEmptied lib columns

mutual

/-- A child without slots is refused where offsets, a null buffer or another column are of the
slots that it had. -/
def refused (lib : DecimalLibrary D) {t : DataType} : BufferedArray D t → Bool
  | .leaf _ _ => false
  | .struct _ columns nulls =>
    anyRefused lib columns || anyEmptied lib columns && !(nulls.isNone && allEmptied lib columns)
  | @BufferedArray.list _ c offsets values _ =>
    isRebuilt lib c && (refused lib values || emptied lib values && 0 < offsets.last)
  | @BufferedArray.largeList _ c offsets values _ =>
    isRebuilt lib c && (refused lib values || emptied lib values && 0 < offsets.last)
  | @BufferedArray.fixedSizeList _ c size _ values nulls =>
    isRebuilt lib c && (refused lib values || size ≠ 0 && emptied lib values && nulls.isSome)
  | @BufferedArray.map _ c _ offsets entries _ =>
    isRebuilt lib c && (refused lib entries || emptied lib entries && 0 < offsets.last)

def anyRefused (lib : DecimalLibrary D) {fields : Fields} : BufferedColumns D fields → Bool
  | .nil => false
  | @BufferedColumns.cons _ c _ values columns =>
    isRebuilt lib c && refused lib values || anyRefused lib columns

end

/-! ## Batches -/

/-- The lines that a batch should become. -/
def exactLines (lib : JsonLibrary D) (batch : BufferedBatch D) : List (List UInt8) :=
  (List.range batch.numRows).map fun i =>
    lib.object (columnsText lib.toDecimalLibrary batch.fields (batch.columns.entries i))

/-- A batch that may be refused. -/
def mayFail (lib : JsonLibrary D) (batch : BufferedBatch D) : Prop :=
  match current lib batch with
  | .ok batch => anyLeafOutside lib.toDecimalLibrary batch.fields ∨
    anyUnreadable lib.toDecimalLibrary batch.columns
  | .error _ => True

/-- A batch becomes one line for each row with the exact text of its leaves, unless a leaf sits
under another container; it is refused only where it may be. -/
def HasExactLines (lib : JsonLibrary D) (batch : BufferedBatch D) : Prop :=
  match recordBatchToLineDelimitedJson lib batch, current lib batch with
  | .ok lines, .ok batch' => anyLeafOutside lib.toDecimalLibrary batch'.fields ∨
    lines.length = batch.numRows ∧ lines = exactLines lib batch'
  | .ok _, .error _ => False
  | .error _, _ => mayFail lib batch

/-- No list of size 0 makes the batch lose rows. -/
def keepsSlots (lib : JsonLibrary D) (batch : BufferedBatch D) : Prop :=
  match current lib batch with
  | .ok batch => anyEmptied lib.toDecimalLibrary batch.columns = false ∧
    anyRefused lib.toDecimalLibrary batch.columns = false
  | .error _ => True

end

end StreamlingPlugins.Utils
