import GenesisForge.Execution.BlockText
import GenesisForge.Proofs.JsonRecords

/-!
# Texts of execution blocks

Every block of the execution chain has a text that it is read from.  Its integers and
byte strings stand there in hexadecimal digits, and null stands for what it lacks.
-/

namespace GenesisForge

open Ssz

namespace BlockText

/-! ## Quantities and byte strings -/

/-- A quantity in hexadecimal digits. -/
def quantityText (n : Nat) : String :=
  String.ofList ('0' :: 'x' :: Nat.toDigits 16 n)

def quantityJson (n : Nat) : Json :=
  .string (quantityText n)

theorem areVerbatim_quantityText (n : Nat) : Json.AreVerbatim (quantityText n).toList := by
  have hspells := Numeral.spells_toDigits (by decide : 1 < 16) n
  rw [quantityText, String.toList_ofList]
  intro c hc
  rcases List.mem_cons.mp hc with rfl | hc
  · decide
  rcases List.mem_cons.mp hc with rfl | hc
  · decide
  · exact Json.areVerbatim_of_digits (Nat.le_refl 16) hspells.isDigit_of_mem c hc

theorem not_isDigit_underscore {d : Nat} : ¬ Numeral.IsDigit 16 '_' d := by
  rw [← Numeral.digitValue?_eq_some_iff (Nat.le_refl 16)]
  simp [Numeral.digitValue?]

theorem quantityOfText?_quantityText (n : Nat) : quantityOfText? (quantityText n) = some n := by
  have hspells := Numeral.spells_toDigits (by decide : 1 < 16) n
  have hfilter : (Nat.toDigits 16 n).filter (· != '_') = Nat.toDigits 16 n := by
    rw [List.filter_eq_self]
    intro c hc
    obtain ⟨d, hdigit⟩ := hspells.isDigit_of_mem c hc
    rw [bne_iff_ne]
    rintro rfl
    exact not_isDigit_underscore hdigit
  rw [quantityOfText?, quantityText, String.toList_ofList]
  change Numeral.foldDigits? 16 0 ((Nat.toDigits 16 n).filter (· != '_')) = some n
  rw [hfilter, Numeral.foldDigits?_eq_some_iff (by decide) hspells.ne_nil]
  exact hspells

theorem quantity?_quantityJson {bits n : Nat} (hn : n < 2 ^ bits) :
    quantity? bits (quantityJson n) = some n := by
  change ((Json.unescape? (quantityText n)).bind quantityOfText?).filter (· < 2 ^ bits) = some n
  rw [Json.unescape?_verbatim (areVerbatim_quantityText n), Option.bind_some,
    quantityOfText?_quantityText, Option.filter_some, if_pos (decide_eq_true hn)]

theorem word?_quantityJson (n : UInt64) : word? (quantityJson n.toNat) = some n := by
  rw [word?, quantity?_quantityJson n.toNat_lt, Option.map_some, UInt64.ofNat_toNat]

theorem word256?_quantityJson (n : Word256) : word256? (quantityJson n.val) = some n := by
  rw [word256?, quantity?_quantityJson n.isLt, Option.bind_some, dif_pos n.isLt]

theorem bytes?_hexJson (bytes : ByteArray) : bytes? (hexJson bytes) = some bytes := by
  rw [hexJson, bytes?, Json.unescape?_verbatim (Json.areVerbatim_encode bytes), Option.bind_some,
    Hex.decode?_encode]

theorem fixedBytes?_hexJson (asWhole : Bool) {n : Nat} (b : FixedBytes n) :
    fixedBytes? asWhole n (hexJson b.bytes) = some b := by
  rw [hexJson, fixedBytes?, Json.unescape?_verbatim (Json.areVerbatim_encode b.bytes),
    Option.bind_some, Hex.decodeFixed?_encode]

/-! ## Members -/

theorem required?_of_member
    {α : Type} {members : List (String × Json)} {names : List String} {read : Json → Option α}
    {value : Json} {a : α} (hread : read value = some a)
    (hmember : member? members names = some (some value)) :
    required? members names read = some a := by
  rw [required?, hmember, Option.bind_some, Option.bind_some, hread]

/-- What may lack, with null in its place. -/
def laterJson {α : Type} (write : α → Json) : Option α → Json
  | none => .null
  | some a => write a

theorem later?_of_member
    {α : Type} {members : List (String × Json)} {name : String} {read : Json → Option α}
    {write : α → Json} {a : Option α} (hread : ∀ a, read (write a) = some a)
    (hnull : read .null = none)
    (hmember : member? members [name] = some (some (laterJson write a))) :
    later? members name read = some a := by
  rw [later?, hmember]
  cases a with
  | none => rfl
  | some a =>
      have hread := hread a
      simp only [laterJson]
      split
      · next heq => cases heq
      · next heq => cases heq
      · next heq =>
          rw [Option.some.inj (Option.some.inj heq), hnull] at hread
          cases hread
      · next heq =>
          rw [← Option.some.inj (Option.some.inj heq), hread, Option.map_some]

/-! ## Plain values -/

/-- Null or a string without escapes. -/
def IsText (d : Json) : Prop :=
  d = .null ∨ ∃ written, d = .string written ∧ Json.AreVerbatim written.toList

theorem isText_quantityJson (n : Nat) : IsText (quantityJson n) :=
  .inr ⟨_, rfl, areVerbatim_quantityText n⟩

theorem isText_hexJson (bytes : ByteArray) : IsText (hexJson bytes) :=
  .inr ⟨_, rfl, Json.areVerbatim_encode bytes⟩

theorem isText_laterJson
    {α : Type} {write : α → Json} (hwrite : ∀ a, IsText (write a)) (a : Option α) :
    IsText (laterJson write a) := by
  cases a with
  | none => exact .inl rfl
  | some a => exact hwrite a

theorem IsText.isPlain {d : Json} (htext : IsText d) : d.IsPlain := by
  rcases htext with rfl | ⟨written, rfl, hwritten⟩
  · exact .null
  · exact .string hwritten

theorem IsText.isProper {d : Json} (htext : IsText d) (depth : Nat) :
    BlockText.isProper depth d = true := by
  rcases htext with rfl | ⟨written, rfl, hwritten⟩
  · rfl
  · rw [BlockText.isProper, Json.unescape?_verbatim hwritten]
    rfl

/-! ## Blocks -/

def headerMembers (header : ExecutionHeader) : List (String × Json) :=
  [("parentHash", hexJson header.parentHash.bytes),
    ("sha3Uncles", hexJson header.ommersHash.bytes),
    ("miner", hexJson header.beneficiary.bytes),
    ("stateRoot", hexJson header.stateRoot.bytes),
    ("transactionsRoot", hexJson header.transactionsRoot.bytes),
    ("receiptsRoot", hexJson header.receiptsRoot.bytes),
    ("logsBloom", hexJson header.logsBloom.bytes),
    ("difficulty", quantityJson header.difficulty.val),
    ("number", quantityJson header.number.toNat),
    ("gasLimit", quantityJson header.gasLimit.toNat),
    ("gasUsed", quantityJson header.gasUsed.toNat),
    ("timestamp", quantityJson header.timestamp.toNat),
    ("extraData", hexJson header.extraData),
    ("mixHash", hexJson header.mixHash.bytes),
    ("nonce", hexJson header.nonce.bytes),
    ("baseFeePerGas", laterJson (quantityJson ·.toNat) header.baseFeePerGas),
    ("withdrawalsRoot", laterJson (hexJson ·.bytes) header.withdrawalsRoot),
    ("blobGasUsed", laterJson (quantityJson ·.toNat) header.blobGasUsed),
    ("excessBlobGas", laterJson (quantityJson ·.toNat) header.excessBlobGas),
    ("parentBeaconBlockRoot", laterJson (hexJson ·.bytes) header.parentBeaconBlockRoot),
    ("requestsHash", laterJson (hexJson ·.bytes) header.requestsHash)]

/-- The fields are found in the order in which the reader looks for them. -/
theorem header?_headerMembers (header : ExecutionHeader) :
    header? (headerMembers header) = some header := by
  have hfixed {n : Nat} (b : FixedBytes n) := fixedBytes?_hexJson true b
  rw [header?]
  iterate 7
    refine Option.bind_eq_some_iff.mpr ⟨_, required?_of_member (hfixed _) rfl, ?_⟩
  refine Option.bind_eq_some_iff.mpr ⟨_, required?_of_member (word256?_quantityJson _) rfl, ?_⟩
  iterate 4
    refine Option.bind_eq_some_iff.mpr ⟨_, required?_of_member (word?_quantityJson _) rfl, ?_⟩
  refine Option.bind_eq_some_iff.mpr ⟨_, required?_of_member (bytes?_hexJson _) rfl, ?_⟩
  iterate 2
    refine Option.bind_eq_some_iff.mpr ⟨_, required?_of_member (hfixed _) rfl, ?_⟩
  refine Option.bind_eq_some_iff.mpr ⟨_, later?_of_member word?_quantityJson rfl rfl, ?_⟩
  refine Option.bind_eq_some_iff.mpr ⟨_, later?_of_member hfixed rfl rfl, ?_⟩
  iterate 2
    refine Option.bind_eq_some_iff.mpr ⟨_, later?_of_member word?_quantityJson rfl rfl, ?_⟩
  iterate 2
    refine Option.bind_eq_some_iff.mpr ⟨_, later?_of_member hfixed rfl rfl, ?_⟩
  rfl

theorem areVerbatim_headerMembers (header : ExecutionHeader) :
    ∀ m ∈ headerMembers header, Json.AreVerbatim m.1.toList := by
  simp only [headerMembers, List.forall_mem_cons]
  decide +kernel

theorem isText_headerMembers (header : ExecutionHeader) :
    ∀ m ∈ headerMembers header, IsText m.2 := by
  simp [headerMembers, isText_quantityJson, isText_hexJson, isText_laterJson]

def withdrawalValues (w : Withdrawal) : List Json :=
  [quantityJson w.index.toNat, quantityJson w.validatorIndex.toNat, hexJson w.address.bytes,
    quantityJson w.amount.toNat]

def withdrawalJson (w : Withdrawal) : Json :=
  .object (withdrawalNames.zip (withdrawalValues w))

theorem areVerbatim_withdrawalNames : ∀ name ∈ withdrawalNames, Json.AreVerbatim name.toList := by
  decide

theorem isPlain_withdrawalJson (w : Withdrawal) : (withdrawalJson w).IsPlain := by
  refine .object (fun m hm => areVerbatim_withdrawalNames m.1 (List.of_mem_zip hm).1) ?_
  intro m hm
  have hvalues : ∀ d ∈ withdrawalValues w, IsText d := by
    simp [withdrawalValues, isText_quantityJson, isText_hexJson]
  exact (hvalues m.2 (List.of_mem_zip hm).2).isPlain

theorem withdrawal?_withdrawalJson (w : Withdrawal) :
    withdrawal? (withdrawalJson w) = some w := by
  have hfields : Structured.fields? withdrawalNames (withdrawalJson w) =
      some (withdrawalValues w) :=
    Json.fields?_object (.refl _)
      (fun m hm => areVerbatim_withdrawalNames m.1 (List.of_mem_zip hm).1)
      (by decide : withdrawalNames.Nodup)
  rw [withdrawal?, hfields]
  simp [withdrawalValues, word?_quantityJson, fixedBytes?_hexJson]

theorem items?_array
    {α : Type} {read : Json → Option α} {write : α → Json} (hread : ∀ a, read (write a) = some a)
    (items : List α) : items? read (.array (items.map write)) = some items := by
  rw [items?, List.mapM_map, Json.mapM_eq_some_map (g := id), List.map_id]
  intro a _
  exact hread a

/-- The members of a block that are no part of its header. -/
def listMembers (block : ExecutionBlock) : List (String × Json) :=
  [("transactions", .array (block.transactions.map hexJson)),
    ("withdrawals", laterJson (fun ws => .array (ws.map withdrawalJson)) block.withdrawals)]

/-- The document that a block is read from. -/
def blockJson (block : ExecutionBlock) : Json :=
  .object (headerMembers block.header ++ listMembers block)

theorem areVerbatim_blockJson (block : ExecutionBlock) :
    ∀ m ∈ headerMembers block.header ++ listMembers block, Json.AreVerbatim m.1.toList := by
  intro m hm
  rcases List.mem_append.mp hm with hm | hm
  · exact areVerbatim_headerMembers block.header m hm
  · have hlists : ∀ m ∈ listMembers block, Json.AreVerbatim m.1.toList := by
      simp only [listMembers, List.forall_mem_cons]
      decide +kernel
    exact hlists m hm

theorem isPlain_blockJson (block : ExecutionBlock) : (blockJson block).IsPlain := by
  refine .object (areVerbatim_blockJson block) ?_
  intro m hm
  rcases List.mem_append.mp hm with hm | hm
  · exact (isText_headerMembers block.header m hm).isPlain
  · have htransactions : (Json.array (block.transactions.map hexJson)).IsPlain := by
      refine .array ?_
      simp [Json.isPlain_hexJson]
    have hwithdrawals :
        (laterJson (fun ws => Json.array (ws.map withdrawalJson)) block.withdrawals).IsPlain := by
      cases block.withdrawals with
      | none => exact .null
      | some ws =>
          refine .array ?_
          simp [isPlain_withdrawalJson]
    rcases List.mem_pair.mp hm with rfl | rfl
    · exact htransactions
    · exact hwithdrawals

/-- Every block has a text that it is read from. -/
theorem ofText?_render_blockJson (block : ExecutionBlock) :
    ExecutionBlock.ofText? (blockJson block).render = some block := by
  have hproper : ¬ (!(headerMembers block.header).all fun m => isProper 126 m.2) = true := by
    rw [Bool.not_eq_true', Bool.not_eq_false, List.all_eq_true]
    exact fun m hm => (isText_headerMembers block.header m hm).isProper 126
  have hwithdrawals := items?_array withdrawal?_withdrawalJson
  rw [ExecutionBlock.ofText?, Json.parse?_render (isPlain_blockJson block)]
  refine Option.bind_eq_some_iff.mpr ⟨_, Json.named?_verbatim (areVerbatim_blockJson block), ?_⟩
  -- What is left without the two lists are the members of the header.
  refine (if_neg hproper).trans ?_
  refine Option.bind_eq_some_iff.mpr ⟨some (.array (block.transactions.map hexJson)), rfl, ?_⟩
  refine Option.bind_eq_some_iff.mpr ⟨_, items?_array bytes?_hexJson block.transactions, ?_⟩
  refine Option.bind_eq_some_iff.mpr ⟨_, later?_of_member hwithdrawals rfl rfl, ?_⟩
  refine Option.bind_eq_some_iff.mpr ⟨_, header?_headerMembers block.header, ?_⟩
  rfl

end BlockText

end GenesisForge
