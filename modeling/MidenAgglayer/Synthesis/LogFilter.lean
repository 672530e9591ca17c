import MidenAgglayer.Synthesis.Events

/-! # The `eth_getLogs` Filter

    `LogFilter` of `src/log_synthesis.rs`: the block range or block hash,
    the address filter with its `UpdateHashChainValue` passthrough, and the
    positional topic filter of one `eth_getLogs` query, together with the
    two helpers the SQL pushdown of `PgStore` is built from,
    `address_alternatives_lower` and `topic0_alternatives_lower`.

    `matches` is cut into its three sections (`blockMatches`,
    `addressMatches`, `topicsMatch`), each returning `false` exactly where
    the source returns early. Block tags are parsed as the source parses
    them: `earliest`, `latest`/`pending`, `0x` hexadecimal, decimal, and the
    current block for anything unparsable (`u64::from_str_radix`, with its
    optional `+` and its range check).
-/

namespace Store

variable (P : Primitives)

/-! ## Section 1: Filters -/

/-- `AddressFilter`: one address or a list of alternatives. -/
inductive AddressFilter where
  | single (address : String)
  | multiple (addresses : List String)
  deriving DecidableEq, Repr

/-- `TopicFilter`: one topic or a list of alternatives. -/
inductive TopicFilter where
  | single (topic : String)
  | multiple (topics : List String)
  deriving DecidableEq, Repr

/-- `LogFilter`, the parameter object of `eth_getLogs`. -/
structure LogFilter where
  fromBlock : Option String
  toBlock : Option String
  address : Option AddressFilter
  topics : Option (List (Option TopicFilter))
  blockHash : Option String
  deriving DecidableEq, Repr

/-- The alternatives an address filter accepts. -/
def AddressFilter.alternatives : AddressFilter → List String
  | .single a => [a]
  | .multiple addrs => addrs

/-- The alternatives a topic filter accepts. -/
def TopicFilter.alternatives : TopicFilter → List String
  | .single t => [t]
  | .multiple topics => topics

/-! ## Section 2: Block tags -/

/-- `char::to_digit(radix)`. -/
def digitValue (radix : Nat) (c : Char) : Option Nat :=
  let d :=
    if '0' ≤ c ∧ c ≤ '9' then some (c.toNat - 48)
    else if 'a' ≤ c ∧ c ≤ 'z' then some (c.toNat - 87)
    else if 'A' ≤ c ∧ c ≤ 'Z' then some (c.toNat - 55)
    else none
  d.filter (· < radix)

/-- The value of a string of digits, most significant first. -/
def digitsValue (radix : Nat) : List Char → Option Nat → Option Nat
  | [], acc => acc
  | c :: cs, acc =>
    digitsValue radix cs (acc.bind fun v => (digitValue radix c).map fun d => v * radix + d)

/-- `u64::from_str_radix`: an optional `+`, at least one digit, and a value
    that fits in `u64`. -/
def fromStrRadix (src : List Char) (radix : Nat) : Option Nat :=
  let digits :=
    match src with
    | '+' :: rest => rest
    | _ => src
  if digits = [] then none
  else (digitsValue radix digits (some 0)).filter (· < 2 ^ 64)

/-- `parse_block_tag`. -/
def parseBlockTag (s : String) (currentBlock : Nat) : Nat :=
  let lower := P.toLowercase s
  match lower with
  | "earliest" => 0
  | "latest" | "pending" => currentBlock
  | _ =>
    if lower.startsWith "0x" then (fromStrRadix (lower.toList.drop 2) 16).getD currentBlock
    else (fromStrRadix lower.toList 10).getD currentBlock

/-- `LogFilter::from_block_number`. -/
def LogFilter.fromBlockNumber (f : LogFilter) (currentBlock : Nat) : Nat :=
  (f.fromBlock.map fun s => parseBlockTag P s currentBlock).getD currentBlock

/-- `LogFilter::to_block_number`. -/
def LogFilter.toBlockNumber (f : LogFilter) (currentBlock : Nat) : Nat :=
  (f.toBlock.map fun s => parseBlockTag P s currentBlock).getD currentBlock

/-! ## Section 3: Matching one log -/

/-- `LogFilter::query_includes_topic`: the filter's topic0 entry is given
    and accepts `topic`. Only topic0 is inspected. -/
def LogFilter.queryIncludesTopic (f : LogFilter) (topic : Option String) : Bool :=
  match topic, f.topics with
  | some topic, some topicFilters =>
    match topicFilters.head? with
    | some (some filter) =>
      let topicLower := P.toLowercase topic
      filter.alternatives.any fun t => P.toLowercase t == topicLower
    | _ => false
  | _, _ => false

/-- The block section of `matches`: the block hash, compared as lowercase
    `0x` text, or else the inclusive block range. -/
def LogFilter.blockMatches (f : LogFilter) (log : SyntheticLog) (currentBlock : Nat) : Bool :=
  match f.blockHash with
  | some blockHash => P.toLowercase (hexText P log.blockHash.toList) == P.toLowercase blockHash
  | none =>
    let fromBlock := f.fromBlockNumber P currentBlock
    let toBlock := f.toBlockNumber P currentBlock
    !(log.blockNumber < fromBlock || log.blockNumber > toBlock)

/-- The address section of `matches`: the lowercase address is one of the
    alternatives, or the log is an `UpdateHashChainValue` whose topic the
    query's topic0 filter asks for (Cantina MA#26 passthrough). -/
def LogFilter.addressMatches (f : LogFilter) (log : SyntheticLog) : Bool :=
  match f.address with
  | none => true
  | some addrFilter =>
    let logAddr := P.toLowercase log.address
    let matchesAddr := addrFilter.alternatives.any fun a => P.toLowercase a == logAddr
    let isPassthrough :=
      if !matchesAddr then
        let topic0 := log.topics.head?.map P.toLowercase
        let isPassthroughTopic :=
          (topic0.map fun t => t == P.toLowercase updateHashChainValueTopic).getD false
        isPassthroughTopic && f.queryIncludesTopic P topic0
      else false
    !(!matchesAddr && !isPassthrough)

/-- The topic section of `matches`: every given position names a topic the
    log has, lowercase, among its alternatives. -/
def LogFilter.topicsMatch (f : LogFilter) (log : SyntheticLog) : Bool :=
  match f.topics with
  | none => true
  | some topicFilters =>
    topicFilters.zipIdx.all fun (topicFilter, i) =>
      match topicFilter with
      | none => true
      | some filter =>
        match log.topics[i]? with
        | none => false
        | some topic =>
          let logTopic := P.toLowercase topic
          filter.alternatives.any fun t => P.toLowercase t == logTopic

/-- `LogFilter::matches`. -/
def LogFilter.matches (f : LogFilter) (log : SyntheticLog) (currentBlock : Nat) : Bool :=
  f.blockMatches P log currentBlock && f.addressMatches P log && f.topicsMatch P log

/-! ## Section 4: The pushdown helpers -/

/-- `LogFilter::address_alternatives_lower`. -/
def LogFilter.addressAlternativesLower (f : LogFilter) : Option (List String) :=
  f.address.map fun a => a.alternatives.map P.toLowercase

/-- `LogFilter::topic0_alternatives_lower`. -/
def LogFilter.topic0AlternativesLower (f : LogFilter) : Option (List String) :=
  match f.topics with
  | none => none
  | some topicFilters =>
    match topicFilters.head? with
    | some (some filter) => some (filter.alternatives.map P.toLowercase)
    | _ => none

end Store
