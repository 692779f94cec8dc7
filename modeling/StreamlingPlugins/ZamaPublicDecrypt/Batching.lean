import StreamlingPlugins.Fallible
import StreamlingPlugins.Packing
import StreamlingPlugins.ZamaPublicDecrypt.Decrypt

/-!
# Batching public decryption

Asking for many handles at once gives every handle the answer it gets when it is asked
for alone, whatever the chunks and whichever handles are refused.
-/

namespace StreamlingPlugins.ZamaPublicDecrypt

open Arrow (TextBatch)
open Erc7984 (Alloy B256)

/-! ## Chunks -/

/-- The bits of a call. -/
def bitsOf (handles : List B256) : Nat :=
  (handles.map encryptionBits).sum

def WithinBudget (handles : List B256) : Prop :=
  bitsOf handles ≤ maxRequestBits

@[simp] theorem bitsOf_concat (handles : List B256) (handle : B256) :
    bitsOf (handles ++ [handle]) = bitsOf handles + encryptionBits handle := by
  simp [bitsOf]

theorem encryptionBits_le (handle : B256) : encryptionBits handle ≤ 256 := by
  unfold encryptionBits
  split <;> decide

theorem WithinBudget.alone (handle : B256) : WithinBudget [handle] := by
  have bits := encryptionBits_le handle
  simp only [WithinBudget, bitsOf, List.map_singleton, List.sum_singleton, maxRequestBits]
  omega

/-- A greedy cut, with the bits of its last chunk. -/
structure Cut (handles : List B256) (cut : List (List B256) × Nat) : Prop where
  pieces : GreedyPieces WithinBudget handles cut.1
  bits : ∀ chunk ∈ cut.1.getLast?, cut.2 = bitsOf chunk

theorem Cut.push {handles : List B256} {cut : List (List B256) × Nat} (cuts : Cut handles cut)
    (handle : B256) : Cut (handles ++ [handle]) (pushHandle cut handle) := by
  obtain ⟨chunks, bits⟩ := cut
  unfold pushHandle
  cases last : chunks.getLast? with
  | none =>
      rw [List.getLast?_eq_none_iff] at last
      subst last
      refine ⟨cuts.pieces.push (.alone handle) nofun, ?_⟩
      rintro _ ⟨⟩
      simp [bitsOf]
  | some chunk =>
      have counted : bits = bitsOf chunk := cuts.bits chunk last
      obtain ⟨before, rfl⟩ := List.getLast?_eq_some_iff.mp last
      by_cases joins : bits + encryptionBits handle ≤ maxRequestBits
      · simp only [if_pos joins, List.dropLast_concat]
        refine ⟨cuts.pieces.extend ?_, ?_⟩
        · rwa [WithinBudget, bitsOf_concat, ← counted]
        · intro grown is_last
          rw [List.getLast?_concat] at is_last
          cases is_last
          rw [bitsOf_concat, counted]
      · simp only [if_neg joins]
        refine ⟨cuts.pieces.push (.alone handle) fun full is_last => ?_, ?_⟩
        · obtain rfl : chunk = full := Option.some.inj (last.symm.trans is_last)
          rwa [WithinBudget, bitsOf_concat, ← counted]
        · intro single is_last
          rw [List.getLast?_concat] at is_last
          cases is_last
          simp [bitsOf]

theorem Cut.foldl {handles : List B256} {cut : List (List B256) × Nat} (cuts : Cut handles cut)
    (rest : List B256) : Cut (handles ++ rest) (rest.foldl pushHandle cut) := by
  induction rest generalizing handles cut with
  | nil => simpa using cuts
  | cons handle rest ih =>
      have next := ih (cuts.push handle)
      rwa [List.append_assoc] at next

/-- The chunks are the handles in order, each within the bits of a request and none with
room for the next handle. -/
theorem greedyPieces_chunkByBits (handles : List B256) :
    GreedyPieces WithinBudget handles (chunkByBits handles) := by
  have empty : Cut [] ([], 0) := ⟨.nil, by simp⟩
  exact (empty.foldl handles).pieces

/-! ## One handle at a time -/

/-- What asking for one handle alone gives: its answer, or an error that is no refusal. -/
def alone (decrypt : Backend) (handle : B256) : Except ClientError Answer :=
  match decrypt [handle] with
  | .ok values => .ok (answer values handle)
  | .error e => if isRefusal e then .ok (.error e.text) else .error e

/-- A handle that fails when it is asked for alone, other than by a refusal. -/
def Fails (decrypt : Backend) (handle : B256) : Prop :=
  ∃ e, decrypt [handle] = .error e ∧ isRefusal e = false

/-- A backend that treats handles independently: what it has of a handle does not depend
on the others, and a call fails only because of one of its handles. -/
structure Independent (decrypt : Backend) : Prop where
  values : ∀ handles values, decrypt handles = .ok values → ∀ handle ∈ handles,
    ∃ own, decrypt [handle] = .ok own ∧ own handle = values handle
  refuses : ∀ handles e, decrypt handles = .error e → isRefusal e = true →
    ∃ handle ∈ handles, ∃ own, decrypt [handle] = .error own ∧ isRefusal own = true
  fails : ∀ handles e, decrypt handles = .error e → isRefusal e = false →
    ∃ handle ∈ handles, Fails decrypt handle

/-- All answers are those of handles asked alone. -/
def Sound (decrypt : Backend) (answers : Answers) : Prop :=
  ∀ handle result, answers handle = some result → alone decrypt handle = .ok result

/-- Answers for handles, each as it is alone. -/
structure Agrees (decrypt : Backend) (handles : List B256) (answers : Answers) : Prop where
  sound : Sound decrypt answers
  complete : ∀ handle ∈ handles, (answers handle).isSome

section

variable {decrypt : Backend} {handles : List B256} {answers answers' : Answers}

theorem Fails.alone_eq {handle : B256} (fails : Fails decrypt handle) :
    ∃ e, alone decrypt handle = .error e := by
  obtain ⟨e, failed, unrefused⟩ := fails
  exact ⟨e, by simp [alone, failed, unrefused]⟩

theorem Agrees.not_fails (agrees : Agrees decrypt handles answers) {handle : B256}
    (member : handle ∈ handles) : ¬ Fails decrypt handle := by
  intro fails
  obtain ⟨e, failed⟩ := fails.alone_eq
  obtain ⟨result, answered⟩ := Option.isSome_iff_exists.mp (agrees.complete handle member)
  cases (agrees.sound handle result answered).symm.trans failed

theorem Sound.empty : Sound decrypt fun _ => none :=
  nofun

theorem Sound.apply {handle : B256} {result : Answer} (sound : Sound decrypt answers)
    (asked : alone decrypt handle = .ok result) :
    Sound decrypt (Change.apply answers ⟨handle, some result⟩) := by
  intro handle' result' found
  by_cases same : handle' = handle
  · subst same
    rw [Change.apply_self] at found
    cases found
    exact asked
  · rw [Change.apply_of_ne _ same] at found
    exact sound handle' result' found

theorem decryptEach_ok (sound : Sound decrypt answers)
    (done : decryptEach decrypt answers handles = .ok answers') :
    Sound decrypt answers' ∧
      ∀ handle, handle ∈ handles ∨ (answers handle).isSome → (answers' handle).isSome := by
  induction handles generalizing answers with
  | nil =>
      cases done
      exact ⟨sound, fun handle known => known.resolve_left List.not_mem_nil⟩
  | cons first rest ih =>
      have grows : ∀ {result}, alone decrypt first = .ok result →
          decryptEach decrypt (Change.apply answers ⟨first, some result⟩) rest = .ok answers' →
            Sound decrypt answers' ∧ ∀ handle, handle ∈ first :: rest ∨ (answers handle).isSome →
              (answers' handle).isSome := by
        intro result asked later
        obtain ⟨sound', complete⟩ := ih (sound.apply asked) later
        refine ⟨sound', fun handle known => complete handle ?_⟩
        by_cases same : handle = first
        · subst same
          rw [Change.apply_self]
          exact .inr rfl
        · rw [Change.apply_of_ne _ same]
          exact known.imp_left fun member => (List.mem_cons.mp member).resolve_left same
      unfold decryptEach at done
      split at done
      · rename_i values asked
        exact grows (by simp [alone, asked]) done
      · rename_i e asked
        split at done
        · rename_i refused
          exact grows (by simp [alone, asked, refused]) done
        · cases done

theorem decryptEach_error {e : ClientError}
    (failed : decryptEach decrypt answers handles = .error e) :
    ∃ handle ∈ handles, Fails decrypt handle := by
  induction handles generalizing answers with
  | nil => cases failed
  | cons first rest ih =>
      unfold decryptEach at failed
      split at failed
      · obtain ⟨handle, member, fails⟩ := ih failed
        exact ⟨handle, List.mem_cons_of_mem _ member, fails⟩
      · rename_i e' asked
        split at failed
        · obtain ⟨handle, member, fails⟩ := ih failed
          exact ⟨handle, List.mem_cons_of_mem _ member, fails⟩
        · rename_i unrefused
          exact ⟨first, List.mem_cons_self, e', asked, by simpa using unrefused⟩

/-- An answered chunk has the answers its handles have alone. -/
theorem decryptChunk_ok (independent : Independent decrypt)
    (done : decryptChunk decrypt handles = .ok answers) : Agrees decrypt handles answers := by
  unfold decryptChunk at done
  split at done
  · rename_i values called
    cases done
    refine ⟨fun handle result found => ?_, fun handle member => by simp [member]⟩
    by_cases member : handle ∈ handles
    · obtain ⟨own, asked, same⟩ := independent.values handles values called handle member
      rw [if_pos member] at found
      cases found
      simp [alone, asked, answer, same]
    · rw [if_neg member] at found
      cases found
  · rename_i e called
    split at done
    · cases done
    · rename_i refused
      split at done
      · cases done
        rename_i handle
        refine ⟨Sound.empty.apply ?_, fun other member => ?_⟩
        · simp only [Bool.not_eq_false] at refused
          simp [alone, called, refused]
        · cases List.mem_singleton.mp member
          rw [Change.apply_self]
          rfl
      · obtain ⟨sound, complete⟩ := decryptEach_ok .empty done
        exact ⟨sound, fun handle member => complete handle (.inl member)⟩

theorem decryptChunk_error (independent : Independent decrypt) {e : ClientError}
    (failed : decryptChunk decrypt handles = .error e) :
    ∃ handle ∈ handles, Fails decrypt handle := by
  unfold decryptChunk at failed
  split at failed
  · cases failed
  · rename_i e' called
    split at failed
    · rename_i unrefused
      exact independent.fails handles e' called unrefused
    · split at failed
      · cases failed
      · exact decryptEach_error failed

theorem decryptChunks_ok (independent : Independent decrypt) {chunks : List (List B256)}
    (sound : Sound decrypt answers) (done : decryptChunks decrypt answers chunks = .ok answers') :
    Sound decrypt answers' ∧
      ∀ handle, handle ∈ chunks.flatten ∨ (answers handle).isSome → (answers' handle).isSome := by
  induction chunks generalizing answers with
  | nil =>
      cases done
      exact ⟨sound, fun handle known => known.resolve_left List.not_mem_nil⟩
  | cons chunk chunks ih =>
      unfold decryptChunks at done
      split at done
      · cases done
      · rename_i more asked
        have agrees := decryptChunk_ok independent asked
        have sound' : Sound decrypt fun handle => (more handle).or (answers handle) := by
          intro handle result found
          rcases Option.or_eq_some_iff.mp found with newer | ⟨_, older⟩
          · exact agrees.sound handle result newer
          · exact sound handle result older
        obtain ⟨sound'', complete⟩ := ih sound' done
        refine ⟨sound'', fun handle known => complete handle ?_⟩
        rw [List.flatten_cons, List.mem_append, or_assoc] at known
        rcases known with here | later | earlier
        · exact .inr (by simp [agrees.complete handle here])
        · exact .inl later
        · exact .inr (by simp [earlier])

theorem decryptChunks_error (independent : Independent decrypt) {chunks : List (List B256)}
    {e : ClientError} (failed : decryptChunks decrypt answers chunks = .error e) :
    ∃ handle ∈ chunks.flatten, Fails decrypt handle := by
  induction chunks generalizing answers with
  | nil => cases failed
  | cons chunk chunks ih =>
      unfold decryptChunks at failed
      split at failed
      · rename_i e' asked
        obtain ⟨handle, member, fails⟩ := decryptChunk_error independent asked
        exact ⟨handle, List.mem_append_left _ member, fails⟩
      · obtain ⟨handle, member, fails⟩ := ih failed
        exact ⟨handle, List.mem_append_right _ member, fails⟩

/-- Every requested handle gets the answer it gets alone. -/
theorem decryptAll_ok (independent : Independent decrypt)
    (done : decryptAll decrypt handles = .ok answers) : Agrees decrypt handles answers := by
  obtain ⟨sound, complete⟩ := decryptChunks_ok independent .empty done
  refine ⟨sound, fun handle member => complete handle (.inl ?_)⟩
  rwa [(greedyPieces_chunkByBits handles).whole]

/-- The whole fails exactly when some handle does. -/
theorem exists_decryptAll_error_iff (independent : Independent decrypt) :
    (∃ e, decryptAll decrypt handles = .error e) ↔ ∃ handle ∈ handles, Fails decrypt handle := by
  constructor
  · rintro ⟨e, failed⟩
    have culprit := decryptChunks_error independent failed
    rwa [(greedyPieces_chunkByBits handles).whole] at culprit
  · rintro ⟨handle, member, fails⟩
    cases outcome : decryptAll decrypt handles with
    | error e => exact ⟨e, rfl⟩
    | ok answers => exact absurd fails ((decryptAll_ok independent outcome).not_fails member)

end

/-! ## Batches -/

theorem mem_dedup {handles : List B256} {handle : B256} :
    handle ∈ dedup handles ↔ handle ∈ handles := by
  induction handles using dedup.induct with
  | case1 a rest ih =>
      rw [dedup, if_pos rfl, ih]
      simp
  | case2 a b rest differ ih => rw [dedup, if_neg differ, List.mem_cons, List.mem_cons, ih]
  | case3 handles short => rw [dedup]; exact short

theorem mem_uniqueHandles {rows : List Row} {handle : B256}
    (member : some (.ok handle) ∈ rows) : handle ∈ uniqueHandles rows := by
  rw [uniqueHandles, mem_dedup, List.mem_mergeSort, List.mem_filterMap]
  exact ⟨_, member, rfl⟩

/-- No row looks up a handle that has no answer. -/
theorem processBatch_ne_panic {alloy : Alloy} {decrypt : Backend} {handleColumn : String}
    {batch : TextBatch} (independent : Independent decrypt) :
    processBatch alloy decrypt handleColumn batch ≠ .ok none := by
  intro done
  obtain ⟨rows, _, done⟩ := bind_eq_ok done
  obtain ⟨answers, asked, done⟩ := bind_eq_ok done
  have agrees := decryptAll_ok independent (mapError_eq_ok.mp asked)
  have each : ∀ row ∈ rows, ∃ cells, some cells = rowCells answers row := by
    intro row member
    rcases row with _ | _ | handle
    · exact ⟨_, rfl⟩
    · exact ⟨_, rfl⟩
    · obtain ⟨result, answered⟩ := Option.isSome_iff_exists.mp
        (agrees.complete handle (mem_uniqueHandles member))
      simp [rowCells, answered]
  obtain ⟨cells, filled⟩ := exists_forall₂_of_forall_mem each
  rw [mapM_eq_some_iff.mpr (map_eq_of_forall₂ filled).symm] at done
  cases done

/-- **Batching agrees with asking one handle at a time.** -/
theorem decryptAll_agrees {decrypt : Backend} (independent : Independent decrypt)
    (handles : List B256) :
    (∀ answers, decryptAll decrypt handles = .ok answers → ∀ handle ∈ handles,
      ∃ result, answers handle = some result ∧ alone decrypt handle = .ok result) ∧
    ((∃ e, decryptAll decrypt handles = .error e) ↔ ∃ handle ∈ handles, Fails decrypt handle) ∧
    GreedyPieces WithinBudget handles (chunkByBits handles) ∧
    ∀ alloy handleColumn batch, processBatch alloy decrypt handleColumn batch ≠ .ok none := by
  refine ⟨fun answers done handle member => ?_, exists_decryptAll_error_iff independent,
    greedyPieces_chunkByBits handles, fun _ _ _ => processBatch_ne_panic independent⟩
  have agrees := decryptAll_ok independent done
  obtain ⟨result, answered⟩ := Option.isSome_iff_exists.mp (agrees.complete handle member)
  exact ⟨result, answered, agrees.sound handle result answered⟩

/-- A backend with the value 7 for every handle but one, which it refuses. -/
def demoBackend : Backend := fun handles =>
  if handles.contains 3 then .error ⟨.sdk, some ⟨"NOT_ENTITLED", "nope", false⟩, "NOT_ENTITLED: nope"⟩
  else .ok fun handle => if handles.contains handle then some (.number 7) else none

theorem demoBackend_independent : Independent demoBackend where
  values handles values called handle member := by
    unfold demoBackend at called ⊢
    split at called
    · cases called
    · rename_i allowed
      cases called
      have refused : [handle].contains (3 : B256) = false := by
        rw [List.contains_eq_mem, decide_eq_false_iff_not, List.mem_singleton]
        rintro rfl
        exact allowed (List.contains_iff_mem.mpr member)
      refine ⟨fun h => if [handle].contains h then some (.number 7) else none, ?_, ?_⟩
      · rw [refused]
        rfl
      · simp [member]
  refuses handles e called _ := by
    unfold demoBackend at called
    split at called
    · rename_i refused
      cases called
      exact ⟨3, by simpa using refused, _, rfl, rfl⟩
    · cases called
  fails handles e called unrefused := by
    unfold demoBackend at called
    split at called
    · cases called
      cases unrefused
    · cases called

/-- Eight handles of the widest type, and narrow ones, of which one is refused. -/
def demoHandles : List B256 :=
  [0x801, 0x802, 0x803, 0x804, 0x805, 0x806, 0x807, 0x808, 3, 0x501]

/-- The wide handles fill a chunk; in the next one, the refused handle is an error of its own row
and the other has its value. -/
theorem decryptAll_agrees_demo :
    ∃ answers, decryptAll demoBackend demoHandles = .ok answers ∧
      chunkByBits demoHandles = [demoHandles.take 8, [3, 0x501]] ∧
      GreedyPieces WithinBudget demoHandles (chunkByBits demoHandles) ∧
      answers 0x808 = some (.ok "7") ∧ answers 0x501 = some (.ok "7") ∧
      answers 3 = some (.error "NOT_ENTITLED: nope") := by
  obtain ⟨each, -, greedy, -⟩ := decryptAll_agrees demoBackend_independent demoHandles
  obtain ⟨answers, done⟩ : ∃ answers, decryptAll demoBackend demoHandles = .ok answers := ⟨_, rfl⟩
  have row {handle : B256} {result : Answer} (member : handle ∈ demoHandles)
      (own : alone demoBackend handle = .ok result) : answers handle = some result := by
    obtain ⟨result', answered, asked⟩ := each answers done handle member
    cases asked.symm.trans own
    exact answered
  exact ⟨answers, done, by decide, greedy, row (by decide) rfl, row (by decide) rfl,
    row (by decide) rfl⟩

end StreamlingPlugins.ZamaPublicDecrypt
