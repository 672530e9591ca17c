import MidenAgglayer.Framework.Abi
import MidenAgglayer.Store.State

/-! # Token Metadata of an Auto-Created Faucet

    `parse_token_metadata` (`src/faucet_ops.rs`) reads the `(symbol,
    decimals)` of a new faucet from a `claimAsset` call's metadata, which the
    bridge sends as `abi.encode(string name, string symbol, uint8 decimals)`.
    It follows the symbol's offset and length words (only their low eight
    bytes, `u256_from_be_slice`) with checked arithmetic and a 64-byte cap
    (`abi_decode_string`), and `sanitise_token_symbol` then maps the raw
    symbol towards Miden's `TokenSymbol`: ASCII letters uppercased, the rest
    dropped, at most six kept, and a fallback derived from the token
    address when nothing is left.

    Besides the model: the bounds of every accepted result
    (`parseTokenMetadata_ok`), and that the metadata the bridge sends is
    read back (`parseTokenMetadata_tokenMetadataAbi`).
-/

open Bytes

namespace FaucetOps

/-! ## Section 1: The model -/

/-- `MIDEN_DECIMALS`. -/
def midenDecimals : UInt8 := 8

/-- `MAX_SCALING_FACTOR`. -/
def maxScalingFactor : UInt8 := 18

/-- `MAX_ORIGIN_DECIMALS`. -/
def maxOriginDecimals : UInt8 := midenDecimals + maxScalingFactor

/-- `MAX_DECODED_STRING_BYTES`. -/
def maxDecodedStringBytes : Nat := 64

/-- `MIDEN_TOKEN_SYMBOL_MAX`. -/
def midenTokenSymbolMax : Nat := 6

/-- `usize::MAX` of the 64-bit targets the service runs on. -/
def usizeMax : Nat := 2 ^ 64 - 1

/-- `str::as_bytes`: a string's UTF-8 bytes. -/
def utf8Bytes (s : String) : List UInt8 := s.toByteArray.data.toList

/-- `String::from_utf8`: the string a byte string encodes, if it is valid
    UTF-8. -/
def fromUtf8 (bytes : List UInt8) : Option String := String.fromUTF8? ⟨bytes.toArray⟩

/-- `u256_from_be_slice`: the last eight bytes of a 32-byte word,
    big-endian, as a `usize`. -/
def u256FromBeSlice (slice : List UInt8) : Nat := beValue (slice.drop (slice.length - 8))

/-- The failures of `parse_token_metadata`. -/
inductive MetadataError where
  | emptyMetadata (tokenAddress : Address)
  | tooShort (len : Nat)
  | decimalsOutOfRange (decimals : UInt8)
  | decimalsNonCanonical
  | offsetOverflow (offset : Nat)
  | offsetOutOfBounds (offset len : Nat)
  | lengthOverCap (len : Nat)
  | endOverflow (start len : Nat)
  | dataOutOfBounds (start stop len : Nat)
  | invalidUtf8
  | emptySymbol (tokenAddress : Address)

/-- The text of each failure; `display` is alloy's `Display` of an address. -/
def MetadataError.message (display : Address → String) : MetadataError → String
  | .emptyMetadata a =>
    s!"empty metadata for non-zero token address {display a}: cannot determine token symbol and decimals for auto-creation"
  | .tooShort len => s!"metadata too short ({len} bytes) to contain ABI-encoded token info"
  | .decimalsOutOfRange d =>
    s!"token decimals out of range: {d} > {maxOriginDecimals} (no local faucet route with miden_decimals = min(decimals, {midenDecimals}) and scale <= {maxScalingFactor} exists)"
  | .decimalsNonCanonical =>
    "token decimals word non-canonical: high bytes are non-zero (malformed ABI)"
  | .offsetOverflow offset => s!"string offset {offset} overflows usize"
  | .offsetOutOfBounds offset len => s!"string offset {offset} out of bounds (data len {len})"
  | .lengthOverCap len =>
    s!"decoded string length {len} exceeds cap {maxDecodedStringBytes} bytes"
  | .endOverflow start len => s!"string end overflow: start {start} + len {len}"
  | .dataOutOfBounds start stop len =>
    s!"string data [{start}..{stop}) out of bounds (data len {len})"
  | .invalidUtf8 => "invalid UTF-8 in token symbol"
  | .emptySymbol a => s!"parsed empty symbol from metadata for token {display a}"

/-- `abi_decode_string`: the string whose length word starts at `offset`. -/
def abiDecodeString (data : List UInt8) (offset : Nat) : Except MetadataError String :=
  let headerEnd := offset + 32
  if usizeMax < headerEnd then .error (.offsetOverflow offset)
  else if data.length < headerEnd then .error (.offsetOutOfBounds offset data.length)
  else
    let len := u256FromBeSlice ((data.drop offset).take 32)
    if maxDecodedStringBytes < len then .error (.lengthOverCap len)
    else
      let strStart := headerEnd
      let strEnd := strStart + len
      if usizeMax < strEnd then .error (.endOverflow strStart len)
      else if data.length < strEnd then .error (.dataOutOfBounds strStart strEnd data.length)
      else
        match fromUtf8 ((data.drop strStart).take len) with
        | some s => .ok s
        | none => .error .invalidUtf8

/-- The letters the sanitiser keeps: `to_ascii_uppercase`, then
    `is_ascii_uppercase`. -/
def symbolLetter (c : Char) : Option Char :=
  let u := c.toUpper
  if u.isUpper then some u else none

/-- The fallback of `sanitise_token_symbol`: `T` and the first four hex
    digits of the address (`format!("{token_address:x}")`), uppercased. -/
def addressFallbackSymbol (tokenAddress : Address) : String :=
  let addrHex := hexChars tokenAddress.toList
  let suffix := String.ofList ((addrHex.take 4).map Char.toUpper)
  "T" ++ suffix

/-- `sanitise_token_symbol`: the raw symbol's ASCII letters, uppercased, at
    most six of them, or the address fallback when none is left. -/
def sanitiseTokenSymbol (raw : String) (tokenAddress : Address) : String :=
  let upper := String.ofList ((raw.toList.filterMap symbolLetter).take midenTokenSymbolMax)
  if upper.isEmpty then addressFallbackSymbol tokenAddress else upper

/-- `Address::is_zero`. -/
def Address.isZero (a : Address) : Bool := a == Vector.replicate 20 0

/-- `parse_token_metadata`. -/
def parseTokenMetadata (metadata : List UInt8) (tokenAddress : Address) :
    Except MetadataError (String × UInt8) :=
  if metadata.isEmpty then
    -- native ETH, which is pre-registered
    if Address.isZero tokenAddress then .ok ("ETH", 18)
    else .error (.emptyMetadata tokenAddress)
  else if metadata.length < 96 then .error (.tooShort metadata.length)
  else
    -- the last byte of the third word
    let decimals := metadata.getD 95 0
    if maxOriginDecimals < decimals then .error (.decimalsOutOfRange decimals)
    else if ((metadata.drop 64).take 31).any (· != 0) then .error .decimalsNonCanonical
    else
      let symbolOffset := u256FromBeSlice ((metadata.drop 32).take 32)
      match abiDecodeString metadata symbolOffset with
      | .error e => .error e
      | .ok rawSymbol =>
        if rawSymbol.isEmpty then .error (.emptySymbol tokenAddress)
        else .ok (sanitiseTokenSymbol rawSymbol tokenAddress, decimals)

/-- The metadata the bridge sends for an ERC-20:
    `abi.encode(string name, string symbol, uint8 decimals)`. -/
def tokenMetadataAbi (name symbol : String) (decimals : UInt8) : List UInt8 :=
  Abi.encode [.bytes (utf8Bytes name), .bytes (utf8Bytes symbol), .uint 8 decimals.toNat]

/-- Miden's `TokenSymbol`, as the code documents it: one to six
    characters, each an uppercase ASCII letter. -/
def IsTokenSymbol (s : String) : Prop :=
  1 ≤ s.length ∧ s.length ≤ midenTokenSymbolMax ∧ ∀ c ∈ s.toList, c.isUpper = true

-- decided through `List.all`, so that the instance does not depend on which
-- instance for bounded quantifiers over lists is in scope
instance decidableIsTokenSymbol (s : String) : Decidable (IsTokenSymbol s) :=
  decidable_of_iff (1 ≤ s.length ∧ s.length ≤ midenTokenSymbolMax ∧ s.toList.all Char.isUpper)
    (by simp only [IsTokenSymbol, List.all_eq_true])

/-! ## Section 2: The sanitiser -/

/-- A kept character is an uppercase letter. -/
theorem isUpper_of_symbolLetter {c u : Char} (h : symbolLetter c = some u) : u.isUpper = true := by
  simp only [symbolLetter, Option.ite_none_right_eq_some, Option.some.injEq] at h
  obtain ⟨hupper, rfl⟩ := h
  exact hupper

/-- Each hex digit, uppercased, is a digit or an uppercase letter. -/
theorem hexDigit_toUpper : ∀ d : Fin 16,
    (hexDigit d).toUpper.isUpper = true ∨ (hexDigit d).toUpper.isDigit = true := by
  decide

/-- The fallback is `T` and four uppercase hex digits. -/
theorem addressFallbackSymbol_spec (tokenAddress : Address) :
    (addressFallbackSymbol tokenAddress).length = 5 ∧
      ∀ c ∈ (addressFallbackSymbol tokenAddress).toList, c.isUpper = true ∨ c.isDigit = true := by
  -- the first two bytes give the four digits
  obtain ⟨b₀, b₁, rest, hbytes⟩ : ∃ b₀ b₁ rest, tokenAddress.toList = b₀ :: b₁ :: rest := by
    have hlen : tokenAddress.toList.length = 20 := tokenAddress.length_toList
    rcases htl : tokenAddress.toList with _ | ⟨b₀, _ | ⟨b₁, rest⟩⟩
    · simp [htl] at hlen
    · simp [htl] at hlen
    · exact ⟨b₀, b₁, rest, rfl⟩
  have hdigits : (hexChars tokenAddress.toList).take 4 = [hexDigit (b₀.toNat / 16),
      hexDigit (b₀.toNat % 16), hexDigit (b₁.toNat / 16), hexDigit (b₁.toNat % 16)] := by
    rw [hbytes]
    rfl
  have hhex : ∀ d < 16, (hexDigit d).toUpper.isUpper = true ∨ (hexDigit d).toUpper.isDigit = true :=
    fun d hd => hexDigit_toUpper ⟨d, hd⟩
  have h₀ := b₀.toNat_lt
  have h₁ := b₁.toNat_lt
  simp only [addressFallbackSymbol, hdigits, String.length_append, String.length_ofList,
    String.toList_append, String.toList_ofList, List.length_cons,
    List.map_cons, List.map_nil, List.mem_append, List.mem_cons, List.not_mem_nil]
  refine ⟨rfl, ?_⟩
  rintro c (hT | hc)
  · have : c = 'T' := by simpa using hT
    subst this
    exact .inl rfl
  · rcases hc with rfl | rfl | rfl | rfl | hnil
    · exact hhex _ (by omega)
    · exact hhex _ (by omega)
    · exact hhex _ (by omega)
    · exact hhex _ (by omega)
    · exact absurd hnil (by simp)

/-- With a letter in the raw symbol, the result is a valid `TokenSymbol`. -/
theorem sanitiseTokenSymbol_of_letters {raw : String} (tokenAddress : Address)
    (hletters : raw.toList.filterMap symbolLetter ≠ []) :
    sanitiseTokenSymbol raw tokenAddress =
        String.ofList ((raw.toList.filterMap symbolLetter).take midenTokenSymbolMax) ∧
      IsTokenSymbol (sanitiseTokenSymbol raw tokenAddress) := by
  have hne : (raw.toList.filterMap symbolLetter).take midenTokenSymbolMax ≠ [] := by
    simpa [midenTokenSymbolMax] using hletters
  have hsan : sanitiseTokenSymbol raw tokenAddress =
      String.ofList ((raw.toList.filterMap symbolLetter).take midenTokenSymbolMax) := by
    unfold sanitiseTokenSymbol
    rw [if_neg (by simpa using hne)]
  refine ⟨hsan, ?_, ?_, ?_⟩
  · rw [hsan, String.length_ofList]
    exact List.length_pos_iff.mpr hne
  · rw [hsan, String.length_ofList]
    exact List.length_take_le _ _
  · intro c hc
    rw [hsan, String.toList_ofList] at hc
    obtain ⟨c', -, hc'⟩ := List.mem_filterMap.mp (List.mem_of_mem_take hc)
    exact isUpper_of_symbolLetter hc'

/-- Without a letter in the raw symbol, the result is the address fallback. -/
theorem sanitiseTokenSymbol_of_no_letters {raw : String} (tokenAddress : Address)
    (hletters : raw.toList.filterMap symbolLetter = []) :
    sanitiseTokenSymbol raw tokenAddress = addressFallbackSymbol tokenAddress := by
  unfold sanitiseTokenSymbol
  rw [hletters, if_pos (by simp)]

/-- The sanitiser's result is a valid `TokenSymbol` or the address fallback. -/
theorem sanitiseTokenSymbol_cases (raw : String) (tokenAddress : Address) :
    IsTokenSymbol (sanitiseTokenSymbol raw tokenAddress) ∨
      sanitiseTokenSymbol raw tokenAddress = addressFallbackSymbol tokenAddress := by
  by_cases hletters : raw.toList.filterMap symbolLetter = []
  · exact .inr (sanitiseTokenSymbol_of_no_letters tokenAddress hletters)
  · exact .inl (sanitiseTokenSymbol_of_letters tokenAddress hletters).2

/-! ## Section 3: What the parser accepts -/

/-- **Accepted metadata.** An accepted token has at most
    `MAX_ORIGIN_DECIMALS` decimals, and a symbol that is a valid
    `TokenSymbol` or the address fallback. -/
theorem parseTokenMetadata_ok {metadata : List UInt8} {tokenAddress : Address} {sym : String}
    {decimals : UInt8} (h : parseTokenMetadata metadata tokenAddress = .ok (sym, decimals)) :
    decimals ≤ maxOriginDecimals ∧
      (IsTokenSymbol sym ∨ sym = addressFallbackSymbol tokenAddress) := by
  unfold parseTokenMetadata at h
  dsimp only at h
  split at h
  · -- empty metadata: native ETH, or an error
    split at h
    · cases h
      exact ⟨by decide, .inl (by decide)⟩
    · cases h
  split at h
  · cases h
  split at h
  · cases h
  rename_i hdec
  split at h
  · cases h
  split at h
  · cases h
  split at h
  · cases h
  -- a non-empty raw symbol, sanitised
  rename_i rawSymbol _ _
  obtain ⟨hsym, hdecimals⟩ := Prod.mk.inj (Except.ok.inj h)
  rw [← hsym, ← hdecimals]
  exact ⟨UInt8.not_lt.mp hdec, sanitiseTokenSymbol_cases rawSymbol tokenAddress⟩

/-! ## Section 4: Reading back what the bridge sends -/

theorem length_utf8Bytes (s : String) : (utf8Bytes s).length = s.utf8ByteSize := by
  simp [utf8Bytes]

theorem fromUtf8_utf8Bytes (s : String) : fromUtf8 (utf8Bytes s) = some s := by
  have hbytes : (⟨(utf8Bytes s).toArray⟩ : ByteArray) = s.toByteArray := by
    simp [utf8Bytes]
  simp only [fromUtf8, hbytes, String.fromUTF8?, s.isValidUTF8, dite_true]
  rfl

/-- A word read back by its low eight bytes, when it fits them. -/
theorem u256FromBeSlice_word {n : Nat} (h : n < 2 ^ 64) : u256FromBeSlice (Abi.word n) = n := by
  have hsplit : Abi.word n = beBytes 24 (n / 256 ^ 8) ++ beBytes 8 n := beBytes_add 24 8 n
  have hlt : n < 256 ^ 8 := by simpa using h
  have hdrop : (beBytes 24 (n / 256 ^ 8) ++ beBytes 8 n).drop 24 = beBytes 8 n :=
    List.drop_left' (length_beBytes 24 _)
  rw [u256FromBeSlice, Abi.length_word, hsplit, show 32 - 8 = 24 from rfl, hdrop,
    beValue_beBytes_of_lt hlt]

/-- The word of a `uint8`: 31 zero bytes, then the byte. -/
theorem word_uint8 (d : UInt8) : Abi.word d.toNat = List.replicate 31 0 ++ [d] := by
  rw [Abi.word_eq_replicate_append (w := 1) (by omega) (by simpa using d.toNat_lt)]
  simp [beBytes]

/-- A string whose length word starts at `offset` is read back, when the
    data fits a `usize` and the string the cap. -/
theorem abiDecodeString_append {front rest : List UInt8} {offset : Nat} {s : String}
    (hfront : front.length = offset) (hcap : s.utf8ByteSize ≤ maxDecodedStringBytes)
    (hfit : (front ++ Abi.word s.utf8ByteSize ++ utf8Bytes s ++ rest).length ≤ usizeMax) :
    abiDecodeString (front ++ Abi.word s.utf8ByteSize ++ utf8Bytes s ++ rest) offset = .ok s := by
  have hlen : (front ++ Abi.word s.utf8ByteSize ++ utf8Bytes s ++ rest).length =
      offset + 32 + s.utf8ByteSize + rest.length := by
    simp only [List.length_append, hfront, Abi.length_word, length_utf8Bytes]
  -- the length word, then the string's bytes
  have hword : ((front ++ Abi.word s.utf8ByteSize ++ utf8Bytes s ++ rest).drop offset).take 32 =
      Abi.word s.utf8ByteSize := by
    rw [List.append_assoc _ (utf8Bytes s)]
    exact Abi.drop_take_append hfront (Abi.length_word _)
  have hbytes : ((front ++ Abi.word s.utf8ByteSize ++ utf8Bytes s ++ rest).drop (offset + 32)).take
      s.utf8ByteSize = utf8Bytes s :=
    Abi.drop_take_append (by simp [hfront]) (length_utf8Bytes s)
  have hsize : u256FromBeSlice (Abi.word s.utf8ByteSize) = s.utf8ByteSize :=
    u256FromBeSlice_word (by unfold maxDecodedStringBytes at hcap; omega)
  unfold abiDecodeString
  dsimp only
  rw [if_neg (by omega), if_neg (by omega), hword, hsize, if_neg (by omega), if_neg (by omega),
    if_neg (by omega), hbytes, fromUtf8_utf8Bytes]

/-- The layout of the bridge's metadata: the three head words, the name's
    tail, then the symbol's length word, bytes and padding. -/
theorem tokenMetadataAbi_eq (name symbol : String) (decimals : UInt8) :
    tokenMetadataAbi name symbol decimals =
      Abi.word 96 ++ Abi.word (96 + (Abi.Value.bytes (utf8Bytes name)).tail.length) ++
        (List.replicate 31 0 ++ [decimals]) ++ (Abi.Value.bytes (utf8Bytes name)).tail ++
        Abi.word symbol.utf8ByteSize ++ utf8Bytes symbol ++
        List.replicate (Abi.padLength symbol.utf8ByteSize) 0 := by
  rw [← word_uint8]
  simp [tokenMetadataAbi, Abi.encode, Abi.Value.head, Abi.Value.tail, length_utf8Bytes]

/-- The head words of the bridge's metadata: the decimals byte, the zeros
    in front of it, and the symbol's offset word. -/
theorem metadataHeads_spec (offset : Nat) (decimals : UInt8) (rest : List UInt8) :
    (Abi.word 96 ++ Abi.word offset ++ (List.replicate 31 0 ++ [decimals]) ++ rest).getD 95 0 =
        decimals ∧
      ((Abi.word 96 ++ Abi.word offset ++ (List.replicate 31 0 ++ [decimals]) ++ rest).drop 64).take
        31 = List.replicate 31 0 ∧
      ((Abi.word 96 ++ Abi.word offset ++ (List.replicate 31 0 ++ [decimals]) ++ rest).drop 32).take
        32 = Abi.word offset := by
  have hbyte : Abi.word 96 ++ Abi.word offset ++ (List.replicate 31 0 ++ [decimals]) ++ rest =
      (Abi.word 96 ++ Abi.word offset ++ List.replicate 31 0) ++ decimals :: rest := by
    simp
  have hzeros : Abi.word 96 ++ Abi.word offset ++ (List.replicate 31 0 ++ [decimals]) ++ rest =
      (Abi.word 96 ++ Abi.word offset) ++ List.replicate 31 0 ++ decimals :: rest := by
    simp
  have hfront : (Abi.word 96 ++ Abi.word offset ++ List.replicate (α := UInt8) 31 0).length = 95 := by
    simp
  refine ⟨?_, ?_, ?_⟩
  · rw [hbyte, List.getD_eq_getElem?_getD, List.getElem?_append_right (by omega), hfront]
    rfl
  · rw [hzeros]
    exact @Abi.drop_take_append _ _ _ _ 64 31 (by simp) (by simp)
  · rw [List.append_assoc (Abi.word 96 ++ Abi.word offset)]
    exact @Abi.drop_take_append _ (Abi.word 96) (Abi.word offset) _ 32 32 (Abi.length_word 96)
      (Abi.length_word offset)

/-- **Round trip.** The metadata the bridge sends, for every name, every
    symbol of one to 64 bytes and every decimals up to
    `MAX_ORIGIN_DECIMALS`, is read back as the sanitised symbol and the
    decimals; the data has a `usize` length, as every byte buffer does. -/
theorem parseTokenMetadata_tokenMetadataAbi (name symbol : String) (decimals : UInt8)
    (tokenAddress : Address) (hsym : 1 ≤ symbol.utf8ByteSize)
    (hcap : symbol.utf8ByteSize ≤ maxDecodedStringBytes) (hdec : decimals ≤ maxOriginDecimals)
    (hfit : (tokenMetadataAbi name symbol decimals).length ≤ usizeMax) :
    parseTokenMetadata (tokenMetadataAbi name symbol decimals) tokenAddress =
      .ok (sanitiseTokenSymbol symbol tokenAddress, decimals) := by
  rw [tokenMetadataAbi_eq] at hfit ⊢
  generalize (Abi.Value.bytes (utf8Bytes name)).tail = tailName at hfit ⊢
  generalize List.replicate (Abi.padLength symbol.utf8ByteSize) (0 : UInt8) = pad at hfit ⊢
  have hlen := hfit
  simp only [List.length_append, Abi.length_word, List.length_replicate, List.length_cons,
    List.length_nil, length_utf8Bytes] at hlen
  -- the head words, read with the name's and symbol's tails behind them
  have hsplit : Abi.word 96 ++ Abi.word (96 + tailName.length) ++
      (List.replicate 31 0 ++ [decimals]) ++ tailName ++ Abi.word symbol.utf8ByteSize ++
      utf8Bytes symbol ++ pad = Abi.word 96 ++ Abi.word (96 + tailName.length) ++
      (List.replicate 31 0 ++ [decimals]) ++
      (tailName ++ Abi.word symbol.utf8ByteSize ++ utf8Bytes symbol ++ pad) := by
    simp only [List.append_assoc]
  obtain ⟨hbyte, hzeros, hword⟩ := metadataHeads_spec (96 + tailName.length) decimals
    (tailName ++ Abi.word symbol.utf8ByteSize ++ utf8Bytes symbol ++ pad)
  rw [← hsplit] at hbyte hzeros hword
  have hoffset : u256FromBeSlice (Abi.word (96 + tailName.length)) = 96 + tailName.length :=
    u256FromBeSlice_word (by unfold usizeMax at hlen; omega)
  -- the symbol itself, behind the heads and the name
  have hdecode := @abiDecodeString_append (Abi.word 96 ++ Abi.word (96 + tailName.length) ++
      (List.replicate 31 0 ++ [decimals]) ++ tailName) pad (96 + tailName.length) symbol
    (by simp only [List.length_append, Abi.length_word, List.length_replicate, List.length_cons,
      List.length_nil]) hcap hfit
  have hraw : symbol.isEmpty = false := by
    rw [String.isEmpty_eq_utf8ByteSize_beq_zero]
    simpa using Nat.one_le_iff_ne_zero.mp hsym
  unfold parseTokenMetadata
  dsimp only
  rw [if_neg (by simp), if_neg (by simp; omega), hbyte, if_neg (UInt8.not_lt.mpr hdec), hzeros,
    if_neg (by simp), hword, hoffset, hdecode]
  simp only [hraw, Bool.false_eq_true, if_false]

/-- The USDT address of the repository's sanitiser test,
    `0xdAC17F958D2ee523a2206206994597C13D831ec7`. -/
def usdtAddress : Address :=
  #v[0xda, 0xc1, 0x7f, 0x95, 0x8d, 0x2e, 0xe5, 0x23, 0xa2, 0x20, 0x62, 0x06, 0x99, 0x45, 0x97,
    0xc1, 0x3d, 0x83, 0x1e, 0xc7]

/-- USDT metadata whose symbol `$$$` has no letter is accepted with the
    symbol `TDAC1`, whose `1` is not an uppercase letter. -/
theorem dollar_symbol_falls_back_to_digit :
    parseTokenMetadata (tokenMetadataAbi "Tether USD" "$$$" 6) usdtAddress = .ok ("TDAC1", 6) ∧
      ¬ IsTokenSymbol "TDAC1" := by
  have hfit : (tokenMetadataAbi "Tether USD" "$$$" 6).length ≤ usizeMax := by
    have hname : "Tether USD".utf8ByteSize = 10 := by decide
    have hsym : "$$$".utf8ByteSize = 3 := by decide
    rw [tokenMetadataAbi_eq]
    simp only [List.length_append, Abi.length_word, List.length_replicate, List.length_cons,
      List.length_nil, length_utf8Bytes, Abi.length_tail_bytes, hname, hsym, Abi.padLength,
      usizeMax]
    omega
  have hsanitised : sanitiseTokenSymbol "$$$" usdtAddress = "TDAC1" := by decide
  refine ⟨?_, by decide⟩
  rw [parseTokenMetadata_tokenMetadataAbi "Tether USD" "$$$" 6 usdtAddress (by decide) (by decide)
    (by decide) hfit, hsanitised]

end FaucetOps
