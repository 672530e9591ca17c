import MidenAgglayer.Safety.DepositIndex
import MidenAgglayer.Client.TransactionOrder
import MidenAgglayer.Synthesis.BridgeCalldata

/-! # The Synthetic Projector's Tick

    `SyntheticProjector::tick` (`src/synthetic_projector.rs`) seals the
    Miden blocks up to the node's tip as synthetic blocks, one per Miden
    block. This module models the tick from its visibility barrier on, with
    the bridge-out path in full:

    * `bridge_consumed_nullifiers` files every input of the bridge's
      transactions, taken in execution order, under its nullifier, with its
      block, its transaction's order in the block and its position among
      the transaction's inputs;
    * `resolve_b2agg_consumptions` rebuilds a consumed B2AGG record for each
      input whose note id is known and whose body the node returns as a
      B2AGG, and fails closed when the node omits an identified note;
    * the records are sorted by block, transaction order, input position and
      id, legacy reservations move to their note keys, and the LET
      reservations are checked against the bridge's on-chain leaf count
      (the LET cardinality gate);
    * `project_block_notes` projects one block's notes in transaction order
      (a B2AGG reserves its LET index before any gate can skip it), refuses
      to seal past a reserved leaf whose `BridgeEvent` is missing (the
      emitted-frontier gate), and only then sets the synthetic tip;
    * the cursor advances after each block is projected.

    A tick is one step: the projector is the only task that writes LET
    reservations, the deposit counter, its cursor and the synthetic tip
    (restore runs before it starts), and ticks run one at a time. The
    node's and the client's answers are the tick's input (`TickEnv`). The
    CLAIM and GER projections (`project_claim_note`, `project_ger_note`)
    come with what the source guarantees of them: they write no
    reservation, counter, cursor, tip or `BridgeEvent`
    (`OtherProjections`). Of a bridge-out, the resolution of its asset,
    faucet, amount and metadata is an input (`Emission`); a quarantine
    writes only its own table. The passes before the barrier (note
    reconciliation, pending duplicates, the calldata backfill) are left
    out, with the reconcile cursor they leave as an input, and so are the
    completeness auditor, metrics and tracing. The in-memory cursor is the
    store's.
-/

open Bytes Maps Store MidenClient

namespace Projector

variable (P : Primitives)

/-! ## Section 1: Consumptions -/

/-- A Miden `NoteId`, as `as_bytes()` gives it. -/
abbrev NoteId := B256

/-- A Miden `Nullifier`. -/
abbrev Nullifier := B256

/-- The parts of a note's `NoteDetails` that projection reads. -/
structure NoteDetails where
  /-- `is_b2agg_note(details)`: the B2AGG script root. -/
  isB2agg : Bool
  /-- `details_commitment().as_bytes()`. -/
  commitment : B256
  /-- `parse_b2agg_storage(details.storage())`: the destination network
      and address. -/
  storage : Except String (Nat × Address)
  deriving DecidableEq

/-- The parts of an `InputNoteRecord` that projection reads. -/
structure InputNote (A : Type) where
  details : NoteDetails
  /-- `id()`: absent from a record whose metadata was dropped. -/
  id : Option NoteId
  /-- `state().consumed_block_height()`. -/
  consumedBlock : Option Nat
  /-- `state().consumed_tx_order()`. -/
  consumedTxOrder : Option Nat
  /-- `consumer_account()`. -/
  consumer : Option A
  deriving DecidableEq

/-- `ConsumedRef`: where the bridge consumed one input. -/
structure ConsumedRef where
  block : Nat
  /-- The consuming transaction's order in its block. -/
  order : Nat
  /-- The id the input's header keeps, if the client kept the header. -/
  noteId : Option NoteId
  /-- The input's position among the transaction's `input_notes()`: the
      on-chain LET append order. -/
  withinTxPos : Nat
  deriving DecidableEq

/-- `FetchedBody`: a public note body the node returned. -/
structure FetchedBody where
  id : NoteId
  details : NoteDetails

/-- `FetchedBodies`: the public bodies, and every id the node returned. -/
structure FetchedBodies where
  bodies : List FetchedBody
  returnedIds : List NoteId

/-- The failures of a tick, one constructor for each message, carrying the
    values the message interpolates. -/
inductive TickError (A : Type) where
  /-- "failed to get sync height: {e}" -/
  | syncHeight (e : String)
  /-- "failed to get consumed input notes: {e}" -/
  | consumedNotes (e : String)
  /-- "failed to get output notes: {e}" -/
  | outputNotes (e : String)
  /-- "sync_transactions({from}..{to}): {e}" -/
  | syncTransactions (lo hi : Nat) (e : String)
  /-- The execution-order failure of `ordered_account_transactions`. -/
  | order (e : OrderError A)
  /-- "get_notes_by_id({n}): {e}" -/
  | fetch (e : String)
  /-- "get_notes_by_id omitted identified bridge consumption {id} at block {block}" -/
  | fetchOmitted (noteId : NoteId) (block : Nat)
  /-- A store call failed. -/
  | store (e : StoreError)
  /-- "LET gate: get_account({bridge}): {e}" -/
  | getAccount (bridgeId : A) (e : String)
  /-- "LET gate: bridge account {bridge} is unavailable" -/
  | accountUnavailable (bridgeId : A)
  /-- "LET reservations are not an execution-order prefix" -/
  | notPrefix
  /-- "LET reservation accounting underflow" -/
  | accountingUnderflow
  /-- `u32::try_from` of an expected index failed. -/
  | indexOutOfRange
  /-- "LET reservation order mismatch for {key}: stored={stored:?}, expected={expected}" -/
  | orderMismatch (key : String) (stored : Option Nat) (expected : Nat)
  /-- "LET gate accounting overflow" -/
  | accountingOverflow
  /-- "LET cardinality gate blocked ({kind}, gap {gap}): on-chain={on_chain}, expected={expected}; …" -/
  | cardinality (onChain expected : Nat)
  /-- "projector: {siblings} B2AGG siblings at block {miden_block}, transaction {order:?}, lack …" -/
  | unresolvedSiblings (siblings block : Nat) (order : Option Nat)
  /-- "B2AGG projection requires an authoritative NoteId" -/
  | missingNoteId
  /-- "restore: bridge-out note {dedup_key} (faucet …, origin_network {n}) has unrecoverable ERC-20 metadata …" -/
  | unrecoverableMetadata (noteKey : String) (originNetwork : Nat)
  /-- "projector halted (fail-closed): note {note} (LET index {idx}) is reserved but its BridgeEvent was never emitted …" -/
  | unemitted (index : Nat) (noteKey : String)
  /-- A failure of the CLAIM or GER projection. -/
  | projection (e : String)

variable {A C : Type} [DecidableEq A] [DecidableEq C]

/-- The inputs of the bridge's ordered transactions, each with where it was
    consumed; `inputNotes tx` is the header's `input_notes()`, each input
    with its nullifier and the id its header keeps. -/
def consumedInputs (inputNotes : TransactionRecord A C → List (Nullifier × Option NoteId))
    (ordered : List (Nat × Nat × TransactionRecord A C)) : List (Nullifier × ConsumedRef) :=
  ordered.flatMap fun entry =>
    (inputNotes entry.2.2).zipIdx.map fun input =>
      (input.1.1, ⟨entry.1, entry.2.1, input.1.2, input.2⟩)

/-- `bridge_consumed_nullifiers`: every input of the bridge's transactions,
    in execution order, under its nullifier (a later input of the same
    nullifier replaces an earlier one, as `HashMap::insert` does). -/
def bridgeConsumedNullifiers (inputNotes : TransactionRecord A C → List (Nullifier × Option NoteId))
    (txs : List (TransactionRecord A C)) (bridgeId : A) :
    Except (OrderError A) (Std.HashMap Nullifier ConsumedRef) :=
  (orderedAccountTransactions txs bridgeId).map fun ordered =>
    Std.HashMap.ofList (consumedInputs inputNotes ordered)

/-- The record `resolve_b2agg_consumptions` builds: consumed externally by
    the bridge at the reference's block and order. -/
def ConsumedRef.record (cref : ConsumedRef) (bridgeId : A) (details : NoteDetails) : InputNote A where
  details := details
  id := none
  consumedBlock := some cref.block
  consumedTxOrder := some cref.order
  consumer := some bridgeId

/-- The references whose note id is known, from the header or else from
    the durable nullifier-to-id join. -/
def identifiedRefs (consumedRefs : List (Nullifier × ConsumedRef)) (b2aggNoteIds : Nullifier → Option NoteId) :
    List (ConsumedRef × NoteId) :=
  consumedRefs.filterMap fun r => (r.2.noteId.or (b2aggNoteIds r.1)).map fun noteId => (r.2, noteId)

/-- The body of each returned B2AGG, by id. -/
def b2aggBodies (fetched : FetchedBodies) : Std.HashMap NoteId NoteDetails :=
  Std.HashMap.ofList ((fetched.bodies.filter (·.details.isB2agg)).map fun body => (body.id, body.details))

/-- The loop over the identified references: a returned B2AGG body gives a
    record and the input's position, a returned other note is skipped, an
    omitted one fails. -/
def collectRecords (bridgeId : A) (fetched : FetchedBodies) :
    List (ConsumedRef × NoteId) → List (NoteId × InputNote A) → Std.HashMap NoteId Nat →
      Except (TickError A) (List (NoteId × InputNote A) × Std.HashMap NoteId Nat)
  | [], recs, pos => .ok (recs, pos)
  | (cref, noteId) :: rest, recs, pos =>
    match (b2aggBodies fetched)[noteId]? with
    | some details =>
      collectRecords bridgeId fetched rest (recs ++ [(noteId, cref.record bridgeId details)])
        (pos.insert noteId cref.withinTxPos)
    | none =>
      if fetched.returnedIds.contains noteId then collectRecords bridgeId fetched rest recs pos
      else .error (.fetchOmitted noteId cref.block)

/-- `resolve_b2agg_consumptions`: the rebuilt records and the input
    position of each. Nothing is fetched when no reference is identified. -/
def resolveB2aggConsumptions (bridgeId : A) (consumedRefs : List (Nullifier × ConsumedRef))
    (b2aggNoteIds : Nullifier → Option NoteId) (fetchPublicBodies : Except String FetchedBodies) :
    Except (TickError A) (List (NoteId × InputNote A) × Std.HashMap NoteId Nat) :=
  let refs := identifiedRefs consumedRefs b2aggNoteIds
  if refs.isEmpty then .ok ([], ∅)
  else
    match fetchPublicBodies with
    | .error e => .error (.fetch e)
    | .ok fetched => collectRecords bridgeId fetched refs [] ∅

/-- The order of the authoritative records: consumption block, transaction
    order, input position, then id. -/
def authOrder (pos : Std.HashMap NoteId Nat) : NoteId × InputNote A → NoteId × InputNote A → Ordering :=
  compareLex (compareOn fun r => r.2.consumedBlock) <|
    compareLex (compareOn fun r => r.2.consumedTxOrder) <|
      compareLex (compareOn fun r => pos[r.1]?) (compareOn fun r => r.1.toList)

/-- The order of one block's notes: transaction order, input position
    (`0` without one), details commitment, then id. -/
def blockOrder (pos : Std.HashMap NoteId Nat) :
    Option NoteId × InputNote A → Option NoteId × InputNote A → Ordering :=
  compareLex (compareOn fun n => n.2.consumedTxOrder) <|
    compareLex (compareOn fun n => (n.1.bind fun id => pos[id]?).getD 0) <|
      compareLex (compareOn fun n => n.2.details.commitment.toList) (compareOn fun n => n.1.map (·.toList))

/-! ## Section 2: One bridge-out -/

/-- `B2AggConsumerClass`. -/
inductive B2AggConsumerClass where
  /-- Consumed by the bridge: a real bridge-out. -/
  | emit
  /-- Consumed by another account: the sender reclaimed it. -/
  | reclaimed
  /-- No recorded consumer: skipped, fail-closed. -/
  | untrackedConsumer
  deriving DecidableEq, Repr

/-- `classify_b2agg_consumer`. -/
def classifyB2aggConsumer (consumerAccount : Option A) (bridgeAccountId : A) : B2AggConsumerClass :=
  match consumerAccount with
  | some consumer => if consumer = bridgeAccountId then .emit else .reclaimed
  | none => .untrackedConsumer

/-- `B2AggRestoreOutcome`. -/
inductive B2AggRestoreOutcome where
  | emitted
  | skipped
  /-- Already processed, but consumed by another account than the bridge. -/
  | legacyProcessedGated
  deriving DecidableEq, Repr

/-- What the resolution of a bridge-out's fungible asset, faucet origin,
    scaled amount and ERC-20 metadata gives. -/
inductive Emission where
  /-- No fungible asset, an unknown faucet or an amount overflow: the leaf
      is quarantined. -/
  | quarantined
  /-- The metadata cannot be recovered and validated. -/
  | unrecoverable (originNetwork : Nat)
  /-- The `BridgeEvent`'s origin and amount, and the metadata to emit. -/
  | ready (originNetwork : Nat) (originAddress : Address) (amount : Nat) (metadata : List UInt8)
  deriving DecidableEq

/-- `BRIDGE_OUT_TX_HASH_TAG`. -/
def bridgeOutTxHashTag : List UInt8 := "miden-agglayer/bridge-out/v1".toUTF8.data.toList ++ [0]

/-- `derive_bridge_out_tx_hash`. -/
def deriveBridgeOutTxHash (noteIdStr : String) : String :=
  "0x" ++ P.hex.encode (P.keccak256 (bridgeOutTxHashTag ++ noteIdStr.toUTF8.data.toList)).toList

/-- What the projector reads of its configuration. -/
structure Config (A C : Type) where
  /-- `bridge_id`. -/
  bridgeId : A
  /-- `local_network_id`. -/
  localNetworkId : Nat
  /-- `get_bridge_address()`. -/
  bridgeAddress : String
  /-- `block_state.get_block_hash`. -/
  blockHash : Nat → B256
  /-- `NoteId::to_hex`. -/
  noteKey : NoteId → String
  /-- A bridge transaction's `input_notes()`: each input's nullifier and
      the note id its header keeps. -/
  inputNotes : TransactionRecord A C → List (Nullifier × Option NoteId)

/-- `project_b2agg_note` at `block`: a processed note is skipped, a
    bridge-consumed one reserves its LET index first, then the gates after
    the reservation may skip it or fail, and only a note that passes them
    all is emitted under its reserved index. -/
def projectB2aggNote (cfg : Config A C) (emission : Emission) (block : Nat) (blockHash : B256)
    (note : InputNote A) (noteId : NoteId) (s : InMemoryStore) :
    InMemoryStore × Except (TickError A) B2AggRestoreOutcome :=
  if !note.details.isB2agg then (s, .ok .skipped)
  else
    let dedupKey := cfg.noteKey noteId
    let txHash := deriveBridgeOutTxHash P (P.hex.encode note.details.commitment.toList)
    let consumerClass := classifyB2aggConsumer note.consumer cfg.bridgeId
    if isNoteProcessed dedupKey s then
      (s, .ok (if consumerClass = .emit then .skipped else .legacyProcessedGated))
    else
      match consumerClass with
      | .reclaimed | .untrackedConsumer => (s, .ok .skipped)
      | .emit =>
        -- the reservation comes before every gate that can skip the leaf
        match reserveDepositIndex dedupKey s with
        | (s, .error e) => (s, .error (.store e))
        | (s, .ok _) =>
          match note.details.storage with
          | .error _ => (s, .ok .skipped)
          | .ok (destinationNetwork, destinationAddress) =>
            if destinationNetwork = cfg.localNetworkId then (s, .ok .skipped)
            else
              match emission with
              | .quarantined => (s, .ok .skipped)
              | .unrecoverable originNetwork => (s, .error (.unrecoverableMetadata dedupKey originNetwork))
              | .ready originNetwork originAddress amount metadata =>
                if maxBridgeEventMetadataBytes < metadata.length then (s, .ok .skipped)
                else
                  match commitB2aggEventAtomic P dedupKey cfg.bridgeAddress block blockHash txHash 0
                      originNetwork originAddress destinationNetwork destinationAddress amount metadata s with
                  | (s, .error e) => (s, .error (.store e))
                  | (s, .ok _) => (s, .ok .emitted)

/-! ## Section 3: One block -/

/-- A store write that leaves the bridge-out state, the cursors and the
    tip alone. -/
structure KeepsProjection (s s' : InMemoryStore) : Prop where
  processedNotes : s'.processedNotes = s.processedNotes
  depositCounter : s'.depositCounter = s.depositCounter
  letGateBaseline : s'.letGateBaseline = s.letGateBaseline
  projectorCursor : s'.projectorCursor = s.projectorCursor
  latestBlockNumber : s'.latestBlockNumber = s.latestBlockNumber
  bridgeEvents : ∀ i, bridgeEventCount P s' i = bridgeEventCount P s i

/-- `project_claim_note` and `project_ger_note` at a block: whether the
    note's event was emitted. They write claim events, GER events and
    handoff state, never what `KeepsProjection` keeps. -/
structure OtherProjections (A : Type) where
  claim : Nat → InputNote A → InMemoryStore → InMemoryStore × Except String Bool
  ger : Nat → InputNote A → InMemoryStore → InMemoryStore × Except String Bool
  claim_keeps : ∀ block note s, KeepsProjection P s (claim block note s).1
  ger_keeps : ∀ block note s, KeepsProjection P s (ger block note s).1

/-- What one tick reads from the node, the client and the rest of the
    process. -/
structure TickEnv (A C : Type) where
  /-- `get_sync_height()`. -/
  syncHeight : Except String Nat
  /-- The reconcile cursor the note reconciler leaves. -/
  reconcileCursor : Nat
  /-- `get_input_notes(NoteFilter::Consumed)`. -/
  consumed : Except String (List (InputNote A))
  /-- `get_output_notes(NoteFilter::All)`, whose metadata only the CLAIM
      and GER projections read. -/
  outputNotes : Except String Unit
  /-- `sync_transactions(from, to, [bridge_id])`. -/
  syncTransactions : Nat → Nat → Except String (List (TransactionRecord A C))
  /-- The node answers with transactions of the blocks asked for. -/
  syncTransactions_range : ∀ lo hi txs, syncTransactions lo hi = .ok txs →
    ∀ tx ∈ txs, lo ≤ tx.blockNum ∧ tx.blockNum ≤ hi
  /-- `get_b2agg_note_ids`: the durable nullifier-to-id join. -/
  b2aggNoteIds : Nullifier → Option NoteId
  /-- `fetch_public_bodies`. -/
  fetchPublicBodies : Except String FetchedBodies
  /-- `get_account(bridge_id)` and `read_let_num_leaves` of it. -/
  letNumLeaves : Except String (Option Nat)
  /-- The resolution of each bridge-out's asset, faucet, amount and
      metadata. -/
  emission : InputNote A → Emission
  others : OtherProjections P A

/-- Count one more B2AGG of transaction order `order` in `ties`, and
    whether it has an authoritative input position. -/
def bumpTie (order : Option Nat) (resolved : Bool) :
    List (Option Nat × Nat × Bool) → List (Option Nat × Nat × Bool)
  | [] => [(order, 1, resolved)]
  | (o, siblings, r) :: rest =>
    if o = order then (o, siblings + 1, r && resolved) :: rest
    else (o, siblings, r) :: bumpTie order resolved rest

/-- The `ties` map of a block's notes, in insertion order. -/
def siblingTies (pos : Std.HashMap NoteId Nat) (notes : List (Option NoteId × InputNote A)) :
    List (Option Nat × Nat × Bool) :=
  notes.foldl (fun ties n =>
    if n.2.details.isB2agg then bumpTie n.2.consumedTxOrder (n.1.any pos.contains) ties else ties) []

/-- The note loop of `project_block_notes`, counting the logs emitted. -/
def projectNotes (cfg : Config A C) (env : TickEnv P A C) (block : Nat) (blockHash : B256) :
    List (Option NoteId × InputNote A) → Nat → InMemoryStore → InMemoryStore × Except (TickError A) Nat
  | [], logs, s => (s, .ok logs)
  | (noteId, note) :: rest, logs, s =>
    if note.details.isB2agg then
      match noteId with
      | none => (s, .error .missingNoteId)
      | some noteId =>
        match projectB2aggNote P cfg (env.emission note) block blockHash note noteId s with
        | (s, .error e) => (s, .error e)
        | (s, .ok outcome) => projectNotes cfg env block blockHash rest (if outcome = .emitted then logs + 1 else logs) s
    else
      match env.others.claim block note s with
      | (s, .error e) => (s, .error (.projection e))
      | (s, .ok true) => projectNotes cfg env block blockHash rest (logs + 1) s
      | (s, .ok false) =>
        match env.others.ger block note s with
        | (s, .error e) => (s, .error (.projection e))
        | (s, .ok emitted) => projectNotes cfg env block blockHash rest (if emitted then logs + 1 else logs) s

/-- `project_block_notes`: refuse B2AGG siblings without an input position,
    project the notes in order, refuse to seal past an unemitted
    reservation, then set the synthetic tip to the block. -/
def projectBlockNotes (cfg : Config A C) (env : TickEnv P A C) (blockNotes : List (Option NoteId × InputNote A))
    (block : Nat) (pos : Std.HashMap NoteId Nat) (s : InMemoryStore) :
    InMemoryStore × Except (TickError A) Nat :=
  match (siblingTies pos blockNotes).find? (fun t => 1 < t.2.1 && !t.2.2) with
  | some (order, siblings, _) => (s, .error (.unresolvedSiblings siblings block order))
  | none =>
    match projectNotes P cfg env block (cfg.blockHash block) (sortBy (blockOrder pos) blockNotes) 0 s with
    | (s, .error e) => (s, .error e)
    | (s, .ok logs) =>
      match firstUnemittedReservation s with
      | some (idx, note) => (s, .error (.unemitted idx note))
      | none => ({ s with latestBlockNumber := block }, .ok logs)

/-! ## Section 4: The tick -/

/-- The consumed feed's CLAIM and GER notes by consumption block; B2AGG
    notes come from the bridge's feed instead. -/
def storeFedBuckets (consumed : List (InputNote A)) : Std.HashMap Nat (List (Option NoteId × InputNote A)) :=
  consumed.foldl (fun byBlock note =>
    if note.details.isB2agg then byBlock
    else
      match note.consumedBlock with
      | some h => pushEntry byBlock h (note.id, note)
      | none => byBlock) ∅

/-- The authoritative B2AGG records pushed into their blocks' buckets, in
    their order. -/
def pushAuthoritative (byBlock : Std.HashMap Nat (List (Option NoteId × InputNote A)))
    (auth : List (NoteId × InputNote A)) : Std.HashMap Nat (List (Option NoteId × InputNote A)) :=
  auth.foldl (fun byBlock r =>
    match r.2.consumedBlock with
    | some h => pushEntry byBlock h (some r.1, r.2)
    | none => byBlock) byBlock

/-- The migration loop: each record's commitment-keyed legacy reservation
    moves to its note key, next to its own legacy event. -/
def migrateLegacyKeys (cfg : Config A C) (auth : List (NoteId × InputNote A)) (s : InMemoryStore) :
    InMemoryStore :=
  auth.foldl (fun s r =>
    match r.2.consumedBlock with
    | none => s
    | some block =>
      let legacyKey := P.hex.encode r.2.details.commitment.toList
      migrateLegacyDepositKey P legacyKey (cfg.noteKey r.1) block (deriveBridgeOutTxHash P legacyKey) s) s

/-- `get_deposit_indices`: the reserved index of each listed key that has
    one. -/
def getDepositIndices (noteKeys : List String) (s : InMemoryStore) : Std.HashMap String Nat :=
  Std.HashMap.ofList (noteKeys.filterMap fun key => (s.processedNotes[key]?).map fun r => (key, r.1))

/-- The order check of the LET gate: the reserved prefix holds the indices
    from `prefixStart` on, in order, each fitting in `u32`. -/
def checkReservedPrefix (existing : Std.HashMap String Nat) (prefixStart : Nat) :
    Nat → List String → Except (TickError A) Unit
  | _, [] => .ok ()
  | offset, key :: rest =>
    let expectedIndex := prefixStart + offset
    if u32Bound ≤ expectedIndex then .error .indexOutOfRange
    else if existing[key]? = some expectedIndex then checkReservedPrefix existing prefixStart (offset + 1) rest
    else .error (.orderMismatch key existing[key]? expectedIndex)

/-- The LET cardinality gate: the reserved keys are a prefix of the
    execution order, holding consecutive indices that end at the accounted
    count, and the on-chain leaves are the accounted ones plus one per
    unreserved key. -/
def letGate (onChain accounted : Nat) (noteKeys : List String) (existing : Std.HashMap String Nat) :
    Except (TickError A) Unit :=
  let firstMissing := noteKeys.findIdx fun key => !existing.contains key
  if (noteKeys.drop firstMissing).any existing.contains then .error .notPrefix
  else if accounted < firstMissing then .error .accountingUnderflow
  else
    match checkReservedPrefix existing (accounted - firstMissing) 0 (noteKeys.take firstMissing) with
    | .error e => .error e
    | .ok () =>
      let unreserved := noteKeys.length - existing.size
      if 2 ^ 64 ≤ accounted + unreserved then .error .accountingOverflow
      else if onChain = accounted + unreserved then .ok ()
      else .error (.cardinality onChain (accounted + unreserved))

/-- The authoritative B2AGG consumptions of blocks `cursor + 1 ..= tip`,
    sorted, with their input positions. -/
def authoritativeB2agg (cfg : Config A C) (env : TickEnv P A C) (cursor tip : Nat) :
    Except (TickError A) (List (NoteId × InputNote A) × Std.HashMap NoteId Nat) :=
  match env.syncTransactions (cursor + 1) tip with
  | .error e => .error (.syncTransactions (cursor + 1) tip e)
  | .ok txs =>
    match bridgeConsumedNullifiers cfg.inputNotes txs cfg.bridgeId with
    | .error e => .error (.order e)
    | .ok refs =>
      match resolveB2aggConsumptions cfg.bridgeId refs.toList env.b2aggNoteIds env.fetchPublicBodies with
      | .error e => .error e
      | .ok (recs, pos) => .ok (sortBy (authOrder pos) recs, pos)

/-- The `while cursor < tip` loop: project the next block, then persist
    the cursor. -/
def projectLoop (cfg : Config A C) (env : TickEnv P A C)
    (byBlock : Std.HashMap Nat (List (Option NoteId × InputNote A))) (pos : Std.HashMap NoteId Nat)
    (tip : Nat) : (fuel : Nat) → (cursor : Nat) → InMemoryStore → InMemoryStore × Except (TickError A) Nat
  | 0, cursor, s => (s, .ok cursor)
  | fuel + 1, cursor, s =>
    if cursor < tip then
      match projectBlockNotes P cfg env (byBlock.getD (cursor + 1) []) (cursor + 1) pos s with
      | (s, .error e) => (s, .error e)
      | (s, .ok _) => projectLoop cfg env byBlock pos tip fuel (cursor + 1) { s with projectorCursor := cursor + 1 }
    else (s, .ok cursor)

/-- `SyntheticProjector::tick` from the visibility barrier on: no block
    seals before reconciliation reaches the tip, and every block up to the
    tip is projected after the LET cardinality gate. -/
def tick (cfg : Config A C) (env : TickEnv P A C) (s : InMemoryStore) :
    InMemoryStore × Except (TickError A) Nat :=
  match env.syncHeight with
  | .error e => (s, .error (.syncHeight e))
  | .ok tip =>
    let cursor := s.projectorCursor
    -- the visibility barrier
    if 0 < tip - env.reconcileCursor then (s, .ok cursor)
    else
      match env.consumed with
      | .error e => (s, .error (.consumedNotes e))
      | .ok consumed =>
        if tip ≤ cursor then (s, .ok cursor)
        else
          match env.outputNotes with
          | .error e => (s, .error (.outputNotes e))
          | .ok () =>
            match authoritativeB2agg P cfg env cursor tip with
            | .error e => (s, .error e)
            | .ok (auth, pos) =>
              let byBlock := pushAuthoritative (storeFedBuckets consumed) auth
              let s := migrateLegacyKeys P cfg auth s
              match env.letNumLeaves with
              | .error e => (s, .error (.getAccount cfg.bridgeId e))
              | .ok none => (s, .error (.accountUnavailable cfg.bridgeId))
              | .ok (some onChain) =>
                match getAccountedDepositCount s with
                | .error e => (s, .error (.store e))
                | .ok accounted =>
                  let noteKeys := auth.map fun r => cfg.noteKey r.1
                  match letGate onChain accounted noteKeys (getDepositIndices noteKeys s) with
                  | .error e => (s, .error e)
                  | .ok () => projectLoop P cfg env byBlock pos tip (tip - cursor) cursor s

end Projector
