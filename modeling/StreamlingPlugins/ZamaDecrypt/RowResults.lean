import StreamlingPlugins.ZamaDecrypt.Lookups

/-!
# What a decrypted row holds

Cells are set row by row: over entries of distinct rows, `modifyRows` changes each of
their cells by its own entry.  A group is asked for exactly the inputs of its rows, so a
row's amount is the answer for its own handle and token, and `decrypt` fails
exactly when the log has a failure that may clear on a retry.
-/

namespace StreamlingPlugins.ZamaDecrypt

open Erc7984 (Address B256)

/-- The cell of a transfer. -/
structure RowDecrypted (log : List Asked) (t : DecodedTransfer) (cell : Decrypted) : Prop where
  consulted : (∃ party, Delegates log t party) ∨ (∃ message, Refused log t message) ∨
    Undelegated log t
  delegator : ∀ party, cell.delegator = some party ↔ Delegates log t party
  active : ∀ party, cell.delegator = some party →
    party ≠ 0 ∧ Answered log (t.token, party) (.ok true)
  exactlyOne : cell.error.isSome = !cell.amount.isSome
  amount : ∀ amount, cell.amount = some amount →
    ∃ party inputs items item value, cell.delegator = some party ∧
      Asked.batch party inputs (.ok items) ∈ log ∧ ⟨t.handle, t.token⟩ ∈ inputs ∧
      (items.filter fun item => item.input = ⟨t.handle, t.token⟩) = [item] ∧
      item.result = .ok value ∧ render value = .ok amount
  refused : ∀ message, Refused log t message →
    cell.error = some ("delegation check failed: " ++ message)
  undelegated : Undelegated log t → cell.error = some noDelegation

/-- What `decrypt` returns with `Ok`. -/
structure Attached (setting : Setting) (cache : Cache) (rows : List (Option DecodedTransfer))
    (log : List Asked) (output : List Decrypted) : Prop where
  length : output.length = rows.length
  others : ∀ i : Nat, rows[i]? = some none → output[i]? = some Decrypted.default
  transfers : ∀ (i : Nat) t, rows[i]? = some (some t) → ∃ cell, output[i]? = some cell ∧
    RowDecrypted log t cell
  answeredOnce : ∀ pair a b, Answered log pair a → Answered log pair b → a = b
  cached : ∀ pair active, Asked.cached pair active ∈ log → ∃ delegation,
    cache pair = some delegation ∧ delegation.active = active ∧
      (delegation.isFresh setting.receiverClock.now (setting.receiverClock.system pair) ∨
        delegation.isFresh setting.senderClock.now (setting.senderClock.system pair))

/-! ## Changing rows -/

variable {change : Entry → Decrypted → Decrypted} {entries : List Entry} {output : List Decrypted}

theorem length_modifyRows : (modifyRows change entries output).length = output.length := by
  unfold modifyRows
  induction entries generalizing output with
  | nil => rfl
  | cons entry entries ih => rw [List.foldl_cons, ih, List.length_modify]

theorem modifyRows_of_not_mem {row : Nat} (other : row ∉ entries.map Prod.fst) :
    (modifyRows change entries output)[row]? = output[row]? := by
  unfold modifyRows
  induction entries generalizing output with
  | nil => rfl
  | cons entry entries ih =>
      rw [List.map_cons, List.mem_cons, not_or] at other
      rw [List.foldl_cons, ih other.2, List.getElem?_modify_ne _ _ (Ne.symm other.1)]

theorem modifyRows_of_mem {entry : Entry} (rows : (entries.map Prod.fst).Nodup)
    (mem : entry ∈ entries) :
    (modifyRows change entries output)[entry.1]? = output[entry.1]?.map (change entry) := by
  induction entries generalizing output with
  | nil => cases mem
  | cons head entries ih =>
      obtain ⟨apart, rest⟩ := List.nodup_cons.mp rows
      rcases List.mem_cons.mp mem with rfl | later
      · have others : (modifyRows change entries (output.modify entry.1 (change entry)))[entry.1]? =
            (output.modify entry.1 (change entry))[entry.1]? := modifyRows_of_not_mem apart
        exact others.trans (List.getElem?_modify_eq _ _ _)
      · have differs : head.1 ≠ entry.1 := fun same => apart (same ▸ List.mem_map_of_mem later)
        have here : (modifyRows change entries (output.modify head.1 (change head)))[entry.1]? =
            (output.modify head.1 (change head))[entry.1]?.map (change entry) := ih rest later
        rwa [List.getElem?_modify_ne _ _ differs] at here

/-! ## The answers of a batch call -/

theorem byInput_apply (items : List BatchItem) (input : EncryptedInput) :
    byInput items input =
      (items.filter fun item => item.input = input).getLast?.map BatchItem.result := by
  have named : Change.lastFor input (items.map fun item =>
      (⟨item.input, some item.result⟩ : Change EncryptedInput _)) =
        (items.filter fun item => item.input = input).getLast?.map fun item =>
          ⟨item.input, some item.result⟩ := by
    rw [Change.lastFor, List.filter_map, List.getLast?_map]
    rfl
  rw [byInput, Change.replay_apply, named]
  cases (items.filter fun item => item.input = input).getLast? with
  | none => rfl
  | some item => rfl

/-- The items of an input, when there is at most one. -/
theorem byInput_of_once {items : List BatchItem} {input : EncryptedInput}
    (once : (items.filter fun item => item.input = input).length ≤ 1) :
    (items.filter (fun item => item.input = input) = [] ∧ byInput items input = none) ∨
      ∃ item, items.filter (fun item => item.input = input) = [item] ∧
        byInput items input = some item.result := by
  rw [byInput_apply]
  generalize items.filter (fun item => item.input = input) = found at once
  match found with
  | [] => exact .inl ⟨rfl, rfl⟩
  | [item] => exact .inr ⟨item, rfl, rfl⟩
  | _ :: _ :: _ => simp at once

theorem byInput_of_mem {items : List BatchItem} {item : BatchItem}
    (once : (items.filter fun other => other.input = item.input).length ≤ 1) (mem : item ∈ items) :
    byInput items item.input = some item.result := by
  have has : item ∈ items.filter fun other => other.input = item.input :=
    List.mem_filter.mpr ⟨mem, by simp⟩
  rcases byInput_of_once once with ⟨none, _⟩ | ⟨other, only, result⟩
  · rw [none] at has
    cases has
  · rw [only] at has
    rwa [List.mem_singleton.mp has] at result ⊢

theorem mem_inputsOf {input : EncryptedInput} {seen : List EncryptedInput} {entries : List Entry} :
    input ∈ inputsOf seen entries ↔ input ∉ seen ∧ ∃ entry ∈ entries, Entry.input entry = input := by
  induction entries generalizing seen with
  | nil => simp [inputsOf]
  | cons entry entries ih =>
      rw [inputsOf]
      split
      · rename_i known
        rw [ih]
        constructor
        · intro found
          obtain ⟨new, entry', mem, same⟩ := found
          exact ⟨new, entry', List.mem_cons_of_mem _ mem, same⟩
        · intro found
          obtain ⟨new, entry', mem, rfl⟩ := found
          rcases List.mem_cons.mp mem with rfl | later
          · exact absurd known new
          · exact ⟨new, entry', later, rfl⟩
      · rename_i new
        rw [List.mem_cons, ih, List.mem_cons, not_or]
        constructor
        · intro found
          rcases found with rfl | ⟨⟨_, fresh⟩, entry', mem, same⟩
          · exact ⟨new, entry, List.mem_cons_self, rfl⟩
          · exact ⟨fresh, entry', List.mem_cons_of_mem _ mem, same⟩
        · intro found
          obtain ⟨fresh, entry', mem, rfl⟩ := found
          by_cases here : Entry.input entry' = Entry.input entry
          · exact .inl here
          · rcases List.mem_cons.mp mem with rfl | later
            · exact absurd rfl here
            · exact .inr ⟨⟨here, fresh⟩, entry', later, rfl⟩

/-! ## Groups -/

/-- The cell of a row whose group was answered. -/
def fillCell (answers : Table EncryptedInput (Except SdkError ClearValue)) (entry : Entry)
    (cell : Decrypted) : Decrypted :=
  match answers (Entry.input entry) with
  | some (.ok value) =>
    match render value with
    | .ok amount => { cell with amount := amount }
    | .error e => { cell with error := e }
  | some (.error e) => { cell with error := e.code ++ ": " ++ e.message }
  | none => { cell with error := noResult }

variable {delegator : Address} {answers : Table EncryptedInput (Except SdkError ClearValue)}
  {cache cache' : Cache} {output' : List Decrypted}

/-- The first row of a group: an item asks for a retry, or the cell is filled. -/
theorem fillRows_cons (delegator : Address)
    (answers : Table EncryptedInput (Except SdkError ClearValue)) (cache : Cache)
    (output : List Decrypted) (entry : Entry) (entries : List Entry) :
    (∃ e failure, answers (Entry.input entry) = some (.error e) ∧ isRefusal e = false ∧
      fillRows delegator answers cache output (entry :: entries) = (cache, .error failure)) ∨
    ((∀ e, answers (Entry.input entry) = some (.error e) → isRefusal e = true) ∧
      ∃ cache₁, fillRows delegator answers cache output (entry :: entries) =
        fillRows delegator answers cache₁ (output.modify entry.1 (fillCell answers entry))
          entries) := by
  have cell : ∀ fill : Decrypted → Decrypted, (∀ c, fill c = fillCell answers entry c) →
      output.modify entry.1 fill = output.modify entry.1 (fillCell answers entry) := by
    intro fill same
    rw [funext same]
  rw [fillRows]
  cases answer : answers (Entry.input entry) with
  | none =>
      refine .inr ⟨fun e held => (by cases held), cache, ?_⟩
      dsimp only
      rw [cell]
      intro c
      simp [fillCell, answer]
  | some result =>
      cases result with
      | ok value =>
          refine .inr ⟨fun e held => (by cases held), cache, ?_⟩
          dsimp only
          rw [cell]
          intro c
          cases rendered : render value with
          | ok amount => simp [fillCell, answer, rendered]
          | error e => simp [fillCell, answer, rendered]
      | error e =>
          cases refusal : isRefusal e with
          | false =>
              have retry : (!isRefusal e) = true := by rw [refusal, Bool.not_false]
              exact .inl ⟨e, _, rfl, refusal, if_pos retry⟩
          | true =>
              refine .inr ⟨fun e' held => ?_, forget cache entry.2.token delegator, ?_⟩
              · cases held
                exact refusal
              · simp only [Bool.not_true, Bool.false_eq_true, ↓reduceIte, refusal]
                rw [cell]
                intro c
                simp [fillCell, answer]

theorem fillRows_ok (done : fillRows delegator answers cache output entries = (cache', .ok output')) :
    output' = modifyRows (fillCell answers) entries output ∧
      ∀ entry ∈ entries, ∀ e, answers (Entry.input entry) = some (.error e) → isRefusal e = true := by
  induction entries generalizing cache output with
  | nil =>
      cases done
      refine ⟨rfl, fun entry mem => ?_⟩
      cases mem
  | cons entry entries ih =>
      rcases fillRows_cons delegator answers cache output entry entries with
        ⟨e, failure, _, _, same⟩ | ⟨refusal, cache₁, same⟩
      · rw [same] at done
        cases done
      · rw [same] at done
        obtain ⟨rest, refusals⟩ := ih done
        refine ⟨rest, fun other mem => ?_⟩
        rcases List.mem_cons.mp mem with rfl | later
        · exact refusal
        · exact refusals other later

theorem fillRows_error {failure : BackendError}
    (done : fillRows delegator answers cache output entries = (cache', .error failure)) :
    ∃ entry ∈ entries, ∃ e, answers (Entry.input entry) = some (.error e) ∧
      isRefusal e = false := by
  induction entries generalizing cache output with
  | nil => cases done
  | cons entry entries ih =>
      rcases fillRows_cons delegator answers cache output entry entries with
        ⟨e, _, held, retry, _⟩ | ⟨_, cache₁, same⟩
      · exact ⟨entry, List.mem_cons_self, e, held, retry⟩
      · rw [same] at done
        obtain ⟨other, mem, found⟩ := ih done
        exact ⟨other, List.mem_cons_of_mem _ mem, found⟩

/-- The cell of a row whose group got `answer`. -/
def groupCell (delegator : Address) (answer : Except BackendError (List BatchItem))
    (entry : Entry) (cell : Decrypted) : Decrypted :=
  let cell := { cell with delegator := some delegator }
  match answer with
  | .ok items => fillCell (byInput items) entry cell
  | .error (.rejected message) => { cell with error := "batch decrypt failed: " ++ message }
  | .error (.transient _) => cell

/-- At most one item per input. -/
def Once (inputs : List EncryptedInput) (answer : Except BackendError (List BatchItem)) : Prop :=
  ∀ items, answer = .ok items →
    ∀ input ∈ inputs, (items.filter fun item => item.input = input).length ≤ 1

/-- What a group's batch call does to the output. -/
structure GroupDecrypted (delegator : Address) (entries : List Entry)
    (output output' : List Decrypted) (log log' : List Asked) : Prop where
  others : ∀ row, row ∉ entries.map Prod.fst → output'[row]? = output[row]?
  cells : ∃ answer, log' = log ++ [.batch delegator (inputsOf [] entries) answer] ∧
    ¬ (Asked.batch delegator (inputsOf [] entries) answer).Fails ∧
    Once (inputsOf [] entries) answer ∧
    ∀ entry ∈ entries, output'[entry.1]? = output[entry.1]?.map (groupCell delegator answer entry)

variable {setting : Setting} {log log' : List Asked}

theorem decryptGroup_ok (answersOnce : setting.backend.AnswersOnce)
    (rows : (entries.map Prod.fst).Nodup)
    (done : decryptGroup setting cache log output delegator entries = (cache', log', .ok output')) :
    GroupDecrypted delegator entries output output' log log' ∧ output'.length = output.length := by
  unfold decryptGroup at done
  dsimp only at done
  have once : Once (inputsOf [] entries)
      (setting.backend.batchDecrypt log (inputsOf [] entries) delegator setting.maxConcurrency) :=
    fun items given => answersOnce _ _ _ _ items given
  generalize given : setting.backend.batchDecrypt log (inputsOf [] entries) delegator
    setting.maxConcurrency = answer at done once
  cases answer with
  | ok items =>
      simp only [Prod.mk.injEq] at done
      obtain ⟨_, rfl, filled⟩ := done
      obtain ⟨rfl, refusals⟩ := fillRows_ok (Prod.ext rfl filled)
      refine ⟨⟨fun row other => ?_, .ok items, rfl, ?_, once, fun entry mem => ?_⟩, ?_⟩
      · rw [modifyRows_of_not_mem other, modifyRows_of_not_mem other]
      · intro fails
        obtain ⟨item, mem, requested, e, failed, retry⟩ := fails
        obtain ⟨_, entry, here, same⟩ := mem_inputsOf.mp requested
        have held := byInput_of_mem (once items rfl _ requested) mem
        rw [← same, failed] at held
        have refusal := refusals entry here e held
        rw [refusal] at retry
        cases retry
      · rw [modifyRows_of_mem rows mem, modifyRows_of_mem rows mem, Option.map_map]
        rfl
      · rw [length_modifyRows, length_modifyRows]
  | error e =>
      cases e with
      | rejected message =>
          simp only [Prod.mk.injEq, Except.ok.injEq] at done
          obtain ⟨_, rfl, rfl⟩ := done
          refine ⟨⟨fun row other => ?_, .error (.rejected message), rfl, id, once,
            fun entry mem => ?_⟩, ?_⟩
          · rw [modifyRows_of_not_mem other, modifyRows_of_not_mem other]
          · rw [modifyRows_of_mem rows mem, modifyRows_of_mem rows mem, Option.map_map]
            rfl
          · rw [length_modifyRows, length_modifyRows]
      | transient message => cases done

theorem decryptGroup_error {failure : BackendError}
    (done : decryptGroup setting cache log output delegator entries =
      (cache', log', .error failure)) : ∃ asked ∈ log', asked.Fails := by
  unfold decryptGroup at done
  dsimp only at done
  generalize setting.backend.batchDecrypt log (inputsOf [] entries) delegator
    setting.maxConcurrency = answer at done
  have last : ∀ asked : Asked, asked ∈ log ++ [asked] := fun asked =>
    List.mem_append_right _ (List.mem_singleton_self asked)
  cases answer with
  | ok items =>
      simp only [Prod.mk.injEq] at done
      obtain ⟨_, rfl, failed⟩ := done
      obtain ⟨entry, mem, e, held, retry⟩ := fillRows_error (Prod.ext rfl failed)
      refine ⟨_, last _, ?_⟩
      rw [byInput_apply] at held
      obtain ⟨item, found, same⟩ := Option.map_eq_some_iff.mp held
      obtain ⟨present, input⟩ := List.mem_filter.mp (List.mem_of_getLast? found)
      have input : item.input = Entry.input entry := of_decide_eq_true input
      refine ⟨item, present, ?_, e, same, retry⟩
      rw [input]
      exact mem_inputsOf.mpr ⟨List.not_mem_nil, entry, mem, rfl⟩
  | error e =>
      cases e with
      | rejected message => cases done
      | transient message =>
          cases done
          exact ⟨_, last _, trivial⟩

/-- The entries of groups, each beside its delegator. -/
def Groups.placed (groups : Groups) : List (Address × Entry) :=
  groups.flatMap fun (delegator, entries) => entries.map fun entry => (delegator, entry)

theorem mem_placed {groups : Groups} {entry : Entry} :
    (delegator, entry) ∈ groups.placed ↔ ∃ group ∈ groups, group.1 = delegator ∧ entry ∈ group.2 := by
  unfold Groups.placed
  rw [List.mem_flatMap]
  constructor
  · intro found
    obtain ⟨group, mem, here⟩ := found
    obtain ⟨entry', here, same⟩ := List.mem_map.mp here
    cases same
    exact ⟨group, mem, rfl, here⟩
  · intro found
    obtain ⟨group, mem, rfl, here⟩ := found
    exact ⟨group, mem, List.mem_map_of_mem here⟩

/-- What answering all groups does to the output and the log. -/
structure GroupsDecrypted (groups : Groups) (output output' : List Decrypted)
    (log log' : List Asked) : Prop where
  length : output'.length = output.length
  grown : ∃ more, log' = log ++ more ∧ Quiet more ∧ ∀ asked ∈ more, asked.answer = none ∧
    ∀ pair active, asked ≠ .cached pair active
  others : ∀ row, row ∉ groups.placed.map (fun place => place.2.1) → output'[row]? = output[row]?
  cells : ∀ delegator entry, (delegator, entry) ∈ groups.placed →
    ∃ inputs answer, Asked.batch delegator inputs answer ∈ log' ∧ Entry.input entry ∈ inputs ∧
      Once inputs answer ∧ ¬ (Asked.batch delegator inputs answer).Fails ∧
      output'[entry.1]? = output[entry.1]?.map (groupCell delegator answer entry)

theorem decryptGroups_ok (answersOnce : setting.backend.AnswersOnce) {groups : Groups}
    (rows : (groups.placed.map fun place => place.2.1).Nodup)
    (done : decryptGroups setting cache log output groups = (cache', log', .ok output')) :
    GroupsDecrypted groups output output' log log' := by
  induction groups generalizing cache log output with
  | nil =>
      cases done
      refine ⟨rfl, ⟨[], (List.append_nil _).symm, ?_, ?_⟩, fun _ _ => rfl, ?_⟩
      all_goals
        intro _
        intros
        contradiction
  | cons group groups ih =>
      obtain ⟨delegator, entries⟩ := group
      have parts : (Groups.placed ((delegator, entries) :: groups)).map (fun place => place.2.1) =
          entries.map Prod.fst ++ (Groups.placed groups).map fun place => place.2.1 := by
        simp [Groups.placed, Function.comp_def]
      rw [parts, List.nodup_append] at rows
      obtain ⟨here, rest, apart⟩ := rows
      rw [decryptGroups] at done
      split at done
      · rename_i cache₁ log₁ output₁ first
        obtain ⟨one, length⟩ := decryptGroup_ok answersOnce here first
        have others := ih rest done
        obtain ⟨answer, rfl, fine, once, filled⟩ := one.cells
        obtain ⟨more, rfl, quiet, silent⟩ := others.grown
        refine ⟨others.length.trans length, ⟨.batch delegator (inputsOf [] entries) answer :: more,
          by simp, ?_, ?_⟩, fun row outside => ?_, fun party entry placed => ?_⟩
        · have first : Quiet [.batch delegator (inputsOf [] entries) answer] := .singleton fine
          exact first.append quiet
        · intro asked mem
          rcases List.mem_cons.mp mem with rfl | later
          · exact ⟨rfl, fun _ _ same => by cases same⟩
          · exact silent asked later
        · rw [parts, List.mem_append, not_or] at outside
          rw [others.others row outside.2, one.others row outside.1]
        · obtain ⟨group, mem, rfl, inside⟩ := mem_placed.mp placed
          rcases List.mem_cons.mp mem with rfl | later
          · refine ⟨_, answer, List.mem_append_left _ (List.mem_append_right _
              (List.mem_singleton_self _)), ?_, once, fine, ?_⟩
            · exact mem_inputsOf.mpr ⟨List.not_mem_nil, entry, inside, rfl⟩
            · have untouched : entry.1 ∉ (Groups.placed groups).map fun place => place.2.1 := fun also =>
                apart _ (List.mem_map_of_mem inside) _ also rfl
              rw [others.others _ untouched, filled entry inside]
          · have there := mem_placed.mpr ⟨group, later, rfl, inside⟩
            have untouched : entry.1 ∉ entries.map Prod.fst := fun also =>
              apart _ also _ (List.mem_map_of_mem there) rfl
            obtain ⟨inputs, answer', logged, requested, once', fine', cell⟩ :=
              others.cells group.1 entry there
            rw [one.others _ untouched] at cell
            exact ⟨inputs, answer', logged, requested, once', fine', cell⟩
      · cases done

theorem decryptGroups_error {groups : Groups} {failure : BackendError}
    (done : decryptGroups setting cache log output groups = (cache', log', .error failure)) :
    ∃ asked ∈ log', asked.Fails := by
  induction groups generalizing cache log output with
  | nil => cases done
  | cons group groups ih =>
      rw [decryptGroups] at done
      split at done
      · exact ih done
      · rename_i first
        cases done
        exact decryptGroup_error first

/-! ## Sorting transfers into groups -/

theorem placed_push (groups : Groups) (delegator : Address) (entry : Entry) :
    (Groups.placed (pushGroup delegator entry groups)).Perm ((delegator, entry) :: groups.placed) := by
  induction groups with
  | nil => exact .refl _
  | cons group groups ih =>
      obtain ⟨key, entries⟩ := group
      rw [pushGroup]
      split
      · rename_i same
        subst same
        simp only [Groups.placed, List.flatMap_cons, List.map_append, List.map_cons, List.map_nil,
          List.append_assoc, List.singleton_append]
        exact List.perm_middle
      · have later := ih.append_left (entries.map fun entry => (key, entry))
        exact later.trans List.perm_middle

/-- The delegator of an entry, if it has one. -/
def assigned (answers : DelegationAnswers) (entry : Entry) : Option (Address × Entry) :=
  match pickDelegator entry.2 answers with
  | .ok (some delegator) => some (delegator, entry)
  | _ => none

/-- The cell of an entry before its group is answered. -/
def settle (answers : DelegationAnswers) (entry : Entry) (cell : Decrypted) : Decrypted :=
  match pickDelegator entry.2 answers with
  | .ok (some _) => cell
  | .ok none => { cell with error := noDelegation }
  | .error message => { cell with error := "delegation check failed: " ++ message }

theorem assign_spec (known : DelegationAnswers) (groups : Groups) (output : List Decrypted)
    (entry : Entry) :
    ((assign known (groups, output) entry).1.placed.Perm
      ((assigned known entry).toList ++ groups.placed)) ∧
      (assign known (groups, output) entry).2 = output.modify entry.1 (settle known entry) := by
  have cell : ∀ fill : Decrypted → Decrypted, (∀ c, fill c = settle known entry c) →
      output.modify entry.1 fill = output.modify entry.1 (settle known entry) := by
    intro fill same
    rw [funext same]
  unfold assign assigned
  cases pick : pickDelegator entry.2 known with
  | error message =>
      refine ⟨.refl _, cell _ fun c => ?_⟩
      simp [settle, pick]
  | ok party =>
      cases party with
      | none =>
          refine ⟨.refl _, cell _ fun c => ?_⟩
          simp [settle, pick]
      | some delegator =>
          refine ⟨placed_push groups delegator entry, ?_⟩
          have same : (id : Decrypted → Decrypted) = settle known entry := by
            funext c
            simp [settle, pick]
          rw [← same, List.modify_id]

theorem assign_foldl (known : DelegationAnswers) (entries : List Entry) (groups : Groups)
    (output : List Decrypted) :
    ((entries.foldl (assign known) (groups, output)).1.placed.Perm
      (entries.filterMap (assigned known) ++ groups.placed)) ∧
      (entries.foldl (assign known) (groups, output)).2 = modifyRows (settle known) entries output := by
  induction entries generalizing groups output with
  | nil => exact ⟨.refl _, rfl⟩
  | cons entry entries ih =>
      obtain ⟨perm, cells⟩ := assign_spec known groups output entry
      rw [List.foldl_cons]
      obtain ⟨perm', cells'⟩ := ih (assign known (groups, output) entry).1
        (assign known (groups, output) entry).2
      refine ⟨perm'.trans ?_, ?_⟩
      · have moved := perm.append_left (entries.filterMap (assigned known))
        refine moved.trans ?_
        rw [← List.append_assoc, List.filterMap_cons]
        cases assigned known entry with
        | none => simp
        | some place => exact (List.perm_append_singleton _ _).append_right _
      · rw [cells', cells]
        rfl

theorem mem_transfersOf {rows : List (Option DecodedTransfer)} {i : Nat} {t : DecodedTransfer} :
    (i, t) ∈ transfersOf rows ↔ rows[i]? = some (some t) := by
  unfold transfersOf
  rw [List.mem_filterMap]
  constructor
  · intro found
    obtain ⟨⟨transfer, row⟩, mem, here⟩ := found
    obtain ⟨t', rfl, same⟩ := Option.map_eq_some_iff.mp here
    cases same
    exact List.mem_zipIdx_iff_getElem?.mp mem
  · intro here
    exact ⟨(some t, i), List.mem_zipIdx_iff_getElem?.mpr here, rfl⟩

theorem rows_zipIdx (rows : List (Option DecodedTransfer)) (n : Nat) :
    let found := (rows.zipIdx n).filterMap fun (transfer, row) =>
      transfer.map fun transfer => (row, transfer)
    (found.map Prod.fst).Nodup ∧ ∀ row ∈ found.map Prod.fst, n ≤ row := by
  induction rows generalizing n with
  | nil => exact ⟨.nil, fun row mem => by cases mem⟩
  | cons transfer rows ih =>
      obtain ⟨nodup, above⟩ := ih (n + 1)
      have later : ∀ row ∈ _, n ≤ row := fun row mem => Nat.le_of_succ_le (above row mem)
      rw [List.zipIdx_cons]
      cases transfer with
      | none => exact ⟨nodup, later⟩
      | some t =>
          refine ⟨List.nodup_cons.mpr ⟨fun mem => ?_, nodup⟩, fun row mem => ?_⟩
          · exact absurd (above n mem) (Nat.not_succ_le_self n)
          · rcases List.mem_cons.mp mem with rfl | rest
            · exact le_refl _
            · exact later row rest

theorem nodup_transfersOf (rows : List (Option DecodedTransfer)) :
    ((transfersOf rows).map Prod.fst).Nodup :=
  (rows_zipIdx rows 0).1

theorem mem_assigned {known : DelegationAnswers} {entries : List Entry} {entry : Entry} :
    (delegator, entry) ∈ entries.filterMap (assigned known) ↔
      entry ∈ entries ∧ pickDelegator entry.2 known = .ok (some delegator) := by
  have tells : ∀ other : Entry, assigned known other = some (delegator, entry) ↔
      other = entry ∧ pickDelegator entry.2 known = .ok (some delegator) := by
    intro other
    unfold assigned
    constructor
    · intro found
      split at found
      · rename_i party picked
        cases found
        exact ⟨rfl, picked⟩
      · cases found
    · intro found
      obtain ⟨rfl, picked⟩ := found
      rw [picked]
  rw [List.mem_filterMap]
  constructor
  · intro found
    obtain ⟨other, mem, here⟩ := found
    obtain ⟨rfl, picked⟩ := (tells other).mp here
    exact ⟨mem, picked⟩
  · intro found
    exact ⟨entry, found.1, (tells entry).mpr ⟨rfl, found.2⟩⟩

/-- The rows of sorted entries stay apart. -/
theorem nodup_assigned {known : DelegationAnswers} {entries : List Entry}
    (rows : (entries.map Prod.fst).Nodup) :
    ((entries.filterMap (assigned known)).map fun place => place.2.1).Nodup := by
  have same : ((entries.filterMap (assigned known)).map fun place => place.2.1) =
      (entries.filter fun entry => (assigned known entry).isSome).map Prod.fst := by
    induction entries with
    | nil => rfl
    | cons entry entries ih =>
        have rest := ih (List.nodup_cons.mp rows).2
        cases found : assigned known entry with
        | none => simpa [found] using rest
        | some place =>
            have here : place.2 = entry := by
              unfold assigned at found
              split at found
              · cases found
                rfl
              · cases found
            simpa [found, here] using rest
  rw [same]
  exact rows.sublist (List.filter_sublist.map Prod.fst)

/-! ## Rows -/

/-- The cell that its group left, for a row that has a delegator. -/
theorem RowDecrypted.of_group {t : DecodedTransfer} {known : DelegationAnswers} {party : Address}
    {row : Nat} {inputs : List EncryptedInput} {answer : Except BackendError (List BatchItem)}
    (same : Matches known log)
    (delegates : Delegates log t party) (asked : Asked.batch party inputs answer ∈ log)
    (requested : Entry.input (row, t) ∈ inputs) (once : Once inputs answer)
    (fine : ¬ (Asked.batch party inputs answer).Fails) :
    RowDecrypted log t (groupCell party answer (row, t) .default) := by
  have pick := pick_of_delegates same delegates
  have delegator : (groupCell party answer (row, t) .default).delegator = some party := by
    unfold groupCell fillCell
    split
    · split
      · split <;> rfl
      · rfl
      · rfl
    · rfl
    · rfl
  have only : ∀ other, Delegates log t other → other = party := by
    intro other found
    have also := pick_of_delegates same found
    rw [pick] at also
    cases also
    rfl
  have isParty : party ≠ 0 ∧ Answered log (t.token, party) (.ok true) := by
    rcases delegates with ⟨nonzero, active, rfl⟩ | ⟨_, nonzero, active, rfl⟩
    · exact ⟨nonzero, active⟩
    · exact ⟨nonzero, active⟩
  refine ⟨.inl ⟨party, delegates⟩, fun other => ?_, fun other held => ?_, ?_, fun amount held => ?_,
    fun message refused => ?_, fun undelegated => ?_⟩
  · rw [delegator]
    constructor
    · intro found
      cases found
      exact delegates
    · intro found
      rw [only other found]
  · rw [delegator] at held
    cases held
    exact isParty
  · unfold groupCell fillCell
    split
    · split
      · split <;> rfl
      · rfl
      · rfl
    · rfl
    · exact absurd trivial fine
  · cases answer with
    | error e => cases e <;> cases held
    | ok items =>
        have atMost := once items rfl _ requested
        simp only [groupCell, fillCell] at held
        rcases byInput_of_once atMost with ⟨_, missing⟩ | ⟨item, found, answered⟩
        · rw [missing] at held
          cases held
        · rw [answered] at held
          cases result : item.result with
          | error e =>
              rw [result] at held
              cases held
          | ok value =>
              rw [result] at held
              cases rendered : render value with
              | error e =>
                  simp only [rendered] at held
                  cases held
              | ok text =>
                  simp only [rendered] at held
                  cases held
                  exact ⟨party, inputs, items, item, value, delegator, asked, requested, found,
                    result, rendered⟩
  · have also := pick_of_refused same refused
    rw [pick] at also
    cases also
  · have also := pick_of_undelegated same undelegated
    rw [pick] at also
    cases also

/-- The cell of a row without a delegator. -/
theorem RowDecrypted.of_error {t : DecodedTransfer} {text : String}
    (consulted : (∃ message, Refused log t message) ∨ Undelegated log t)
    (noParty : ∀ party, ¬ Delegates log t party)
    (refused : ∀ message, Refused log t message → text = "delegation check failed: " ++ message)
    (undelegated : Undelegated log t → text = noDelegation) :
    RowDecrypted log t ⟨none, none, some text⟩ where
  consulted := .inr consulted
  delegator := by
    intro party
    constructor
    · intro held
      cases held
    · intro delegates
      exact absurd delegates (noParty party)
  active := by
    intro party held
    cases held
  exactlyOne := rfl
  amount := by
    intro amount held
    cases held
  refused := fun message found => congrArg some (refused message found)
  undelegated := fun found => congrArg some (undelegated found)

theorem RowDecrypted.of_refused {t : DecodedTransfer} {known : DelegationAnswers}
    {message : String} (same : Matches known log) (refused : Refused log t message) :
    RowDecrypted log t ⟨none, none, some ("delegation check failed: " ++ message)⟩ := by
  have pick := pick_of_refused same refused
  refine .of_error (.inl ⟨message, refused⟩) (fun party delegates => ?_) (fun other found => ?_)
    fun undelegated => ?_
  · rw [pick_of_delegates same delegates] at pick
    cases pick
  · rw [pick_of_refused same found] at pick
    cases pick
    rfl
  · rw [pick_of_undelegated same undelegated] at pick
    cases pick

theorem RowDecrypted.of_undelegated {t : DecodedTransfer} {known : DelegationAnswers}
    (same : Matches known log) (undelegated : Undelegated log t) :
    RowDecrypted log t ⟨none, none, some noDelegation⟩ := by
  have pick := pick_of_undelegated same undelegated
  refine .of_error (.inr undelegated) (fun party delegates => ?_) (fun other found => ?_)
    fun _ => rfl
  · rw [pick_of_delegates same delegates] at pick
    cases pick
  · rw [pick_of_refused same found] at pick
    cases pick

theorem Matches.append_silent {known : DelegationAnswers} {more : List Asked}
    (same : Matches known log) (silent : ∀ asked ∈ more, asked.answer = none) :
    Matches known (log ++ more) := by
  intro pair a
  rw [answered_append, ← same pair a]
  have none : ¬ Answered more pair a := by
    intro found
    obtain ⟨asked, mem, tells⟩ := found
    rw [silent asked mem] at tells
    cases tells
  simp [none]

/-- What is said about a party stays said. -/
theorem Answered.mono {more : List Asked} {pair : Pair} {a : Except String Bool}
    (answered : Answered log pair a) : Answered (log ++ more) pair a :=
  answered_append.mpr (.inl answered)

theorem PassesReceiver.mono {more : List Asked} {t : DecodedTransfer}
    (passes : PassesReceiver log t) : PassesReceiver (log ++ more) t :=
  passes.imp_right Answered.mono

theorem Delegates.mono {more : List Asked} {t : DecodedTransfer} {party : Address}
    (delegates : Delegates log t party) : Delegates (log ++ more) t party := by
  rcases delegates with ⟨nonzero, active, same⟩ | ⟨passes, nonzero, active, same⟩
  · exact .inl ⟨nonzero, active.mono, same⟩
  · exact .inr ⟨passes.mono, nonzero, active.mono, same⟩

theorem Refused.mono {more : List Asked} {t : DecodedTransfer} {message : String}
    (refused : Refused log t message) : Refused (log ++ more) t message := by
  rcases refused with ⟨nonzero, refused⟩ | ⟨passes, nonzero, refused⟩
  · exact .inl ⟨nonzero, refused.mono⟩
  · exact .inr ⟨passes.mono, nonzero, refused.mono⟩

theorem Undelegated.mono {more : List Asked} {t : DecodedTransfer}
    (undelegated : Undelegated log t) : Undelegated (log ++ more) t :=
  ⟨undelegated.1.mono, undelegated.2.imp_right Answered.mono⟩

variable {rows : List (Option DecodedTransfer)}

/-- The groups and cells that the answers come to, and what becomes of them. -/
theorem decrypt_ok (answersOnce : setting.backend.AnswersOnce)
    (done : decrypt setting cache rows = (cache', log', .ok output)) :
    Attached setting cache rows log' output ∧ Quiet log' := by
  unfold decrypt at done
  dsimp only at done
  split at done
  · cases done
  · rename_i cache₁ log₁ known answered
    have looked := delegationAnswers_ok answered
    have nodup := nodup_transfersOf rows
    obtain ⟨perm, cells⟩ := assign_foldl known (transfersOf rows) []
      (List.replicate rows.length .default)
    generalize (transfersOf rows).foldl (assign known) ([], List.replicate rows.length .default) =
      sorted at perm cells done
    obtain ⟨groups, output₀⟩ := sorted
    dsimp only at done perm cells
    have placed : (Groups.placed (setting.orders.groups.arrange groups)).Perm
        ((transfersOf rows).filterMap (assigned known)) := by
      have arranged : (Groups.placed (setting.orders.groups.arrange groups)).Perm groups.placed :=
        (setting.orders.groups.perm groups).flatMap_right _
      simpa [Groups.placed] using arranged.trans perm
    have apart := (placed.map fun place => place.2.1).nodup_iff.mpr (nodup_assigned nodup)
    have answer := decryptGroups_ok answersOnce apart done
    obtain ⟨more, rfl, quiet, silent⟩ := answer.grown
    have same : Matches known (log₁ ++ more) :=
      looked.backed.same.append_silent fun asked mem => (silent asked mem).1
    have length : output₀.length = rows.length := by
      rw [cells, length_modifyRows, List.length_replicate]
    have fresh : ∀ row < rows.length, (List.replicate rows.length Decrypted.default)[row]? =
        some .default := fun row bound => by rw [List.getElem?_replicate, if_pos bound]
    -- a row that no group answers keeps the cell it was sorted with
    have unplaced : ∀ row, (∀ t, (row, t) ∈ transfersOf rows →
        assigned known (row, t) = none) → output[row]? = output₀[row]? := by
      intro row none
      refine answer.others row fun mem => ?_
      obtain ⟨⟨party, entry⟩, place, rfl⟩ := List.mem_map.mp mem
      obtain ⟨present, picked⟩ := mem_assigned.mp (placed.mem_iff.mp place)
      have absent := none entry.2 present
      rw [assigned, picked] at absent
      cases absent
    refine ⟨⟨answer.length.trans length, fun row here => ?_, fun row t here => ?_,
      fun pair a b left right => ?_, fun pair active mem => ?_⟩, looked.backed.quiet.append quiet⟩
    · have bound := (List.getElem?_eq_some_iff.mp here).1
      have absent : ∀ t, (row, t) ∉ transfersOf rows := by
        intro t mem
        rw [mem_transfersOf.mp mem] at here
        cases here
      rw [unplaced row fun t mem => absurd mem (absent t), cells, modifyRows_of_not_mem, fresh row bound]
      intro mem
      obtain ⟨entry, present, rfl⟩ := List.mem_map.mp mem
      exact absent entry.2 present
    · have bound := (List.getElem?_eq_some_iff.mp here).1
      have mem := mem_transfersOf.mpr here
      have start : output₀[row]? = some (settle known (row, t) .default) := by
        rw [cells]
        rw [modifyRows_of_mem nodup mem, fresh row bound]
        rfl
      -- the row is the only entry of its row
      have alone : ∀ t', (row, t') ∈ transfersOf rows → t' = t := by
        intro t' mem'
        rw [mem_transfersOf.mp mem'] at here
        cases here
        rfl
      rcases looked.consulted mem with ⟨party, delegates⟩ | ⟨message, refused⟩ | undelegated
      · have pick := pick_of_delegates looked.backed.same delegates
        have place := placed.mem_iff.mpr (mem_assigned.mpr ⟨mem, pick⟩)
        obtain ⟨inputs, reply, asked, requested, once, fine, cell⟩ := answer.cells _ _ place
        refine ⟨groupCell party reply (row, t) .default, ?_,
          .of_group same delegates.mono asked requested once fine⟩
        rw [cell, start]
        simp [settle, pick]
      · have pick := pick_of_refused looked.backed.same refused
        refine ⟨_, ?_, .of_refused same refused.mono⟩
        rw [unplaced row fun t' mem' => by simp [assigned, alone t' mem', pick], start]
        simp [settle, pick, Decrypted.default]
      · have pick := pick_of_undelegated looked.backed.same undelegated
        refine ⟨_, ?_, .of_undelegated same undelegated.mono⟩
        rw [unplaced row fun t' mem' => by simp [assigned, alone t' mem', pick], start]
        simp [settle, pick, Decrypted.default]
    · have one := (same pair a).mpr left
      rw [(same pair b).mpr right] at one
      exact (Option.some.inj one).symm
    · rcases List.mem_append.mp mem with looking | later
      · exact looked.cached pair active looking
      · exact absurd rfl ((silent _ later).2 pair active)

theorem decrypt_error {failure : BackendError}
    (done : decrypt setting cache rows = (cache', log', .error failure)) :
    ∃ asked ∈ log', asked.Fails := by
  unfold decrypt at done
  dsimp only at done
  split at done
  · rename_i answered
    cases done
    exact delegationAnswers_error answered
  · exact decryptGroups_error done

/-- Whatever the backend, the cache and the orders: `Ok` attaches to every row what
its own lookups and its own handle and token came to, and `Err` is returned exactly
when something asks for a retry. -/
theorem decrypt_attaches (setting : Setting) (answersOnce : setting.backend.AnswersOnce)
    (cache : Cache) (rows : List (Option DecodedTransfer)) :
    (∀ output, (decrypt setting cache rows).2.2 = .ok output →
      Attached setting cache rows (decrypt setting cache rows).2.1 output) ∧
    ((∃ failure, (decrypt setting cache rows).2.2 = .error failure) ↔
      ∃ asked ∈ (decrypt setting cache rows).2.1, asked.Fails) := by
  generalize done : decrypt setting cache rows = progress
  obtain ⟨cache', log', outcome⟩ := progress
  cases outcome with
  | ok output =>
      obtain ⟨attached, quiet⟩ := decrypt_ok answersOnce done
      refine ⟨fun other same => ?_, fun failed => ?_, fun found => ?_⟩
      · cases same
        exact attached
      · obtain ⟨failure, same⟩ := failed
        cases same
      · obtain ⟨asked, mem, fails⟩ := found
        exact absurd fails (quiet asked mem)
  | error failure =>
      refine ⟨fun output same => ?_, fun _ => decrypt_error done, fun _ => ⟨failure, rfl⟩⟩
      cases same

/-- One party delegated, and the relayer has one result. -/
def oneDelegation : Setting where
  backend :=
    { delegationStatus := fun _ query => .ok ⟨query.delegatorAddress = 0xaa, 0⟩
      batchDecrypt := fun _ _ _ _ => .ok [⟨1, 0x11, .ok (.bigInt 7)⟩] }
  delegate := 0xdd
  maxConcurrency := none
  receiverClock := ⟨0, fun _ => none⟩
  senderClock := ⟨0, fun _ => none⟩
  orders := ⟨⟨id, .refl⟩, ⟨id, .refl⟩, ⟨id, .refl⟩⟩

theorem decrypt_attaches_oneDelegation :
    let rows := [some ⟨0x11, 0xbb, 0xaa, 1⟩, none, some ⟨0x11, 0xaa, 0xbb, 2⟩]
    ∃ output, (decrypt oneDelegation (fun _ => none) rows).2.2 = .ok output ∧
      output = [⟨some "7", some 0xaa, none⟩, .default, ⟨none, some 0xaa, some noResult⟩] ∧
      Attached oneDelegation (fun _ => none) rows
        (decrypt oneDelegation (fun _ => none) rows).2.1 output := by
  have once : oneDelegation.backend.AnswersOnce := by
    intro log inputs delegator maxConcurrency items given input _
    cases given
    exact List.length_filter_le _ _
  exact ⟨_, by rfl, by rfl, (decrypt_attaches oneDelegation once (fun _ => none) _).1 _ (by rfl)⟩

end StreamlingPlugins.ZamaDecrypt
