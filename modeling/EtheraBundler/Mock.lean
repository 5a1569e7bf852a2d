import EtheraBundler.Lib.Keccak
import EtheraBundler.Bundler
/-!
# The test-suite's bundler, and a concrete `alloy`

| here | there |
| --- | --- |
| `happyOp`, `testConfig`, `mockAnswer` | those of `tests/bundler_pipeline.rs`, `MockProvider::default()` |
| `otherOp` | an op of another sender, with fees of its own |
| `alloy` | the Solidity ABI, the EIP-2718 type-2 envelope and its Keccak hash |

Witnesses run on these. Decoding a string reads every byte as one character, which is UTF-8 on
the ASCII texts used here.
-/

namespace EtheraBundler

open BigEndian Interact

/-! ## Solidity ABI -/

namespace Abi

def word (n : Nat) : Bytes := beBytes 32 n

/-- An address, left-padded to a word. -/
def address (a : Address) : Bytes := List.replicate 12 0 ++ a.bytes

/-- A dynamic byte string: its length, then its bytes padded to whole words. -/
def bytes (l : Bytes) : Bytes := word l.length ++ l ++ List.replicate ((32 - l.length % 32) % 32) 0

/-- A member of a tuple: one word in place, or a body behind an offset. -/
inductive Field where
  | static (word : Bytes)
  | dynamic (body : Bytes)

def heads (off : Nat) : List Field → Bytes
  | [] => []
  | .static w :: fs => w ++ heads off fs
  | .dynamic body :: fs => word off ++ heads (off + body.length) fs

def tails : List Field → Bytes
  | [] => []
  | .static _ :: fs => tails fs
  | .dynamic body :: fs => body ++ tails fs

def tuple (fs : List Field) : Bytes := heads (32 * fs.length) fs ++ tails fs

/-- A dynamic array of dynamic members. -/
def array (bodies : List Bytes) : Bytes := word bodies.length ++ tuple (bodies.map .dynamic)

def string (s : String) : Bytes := bytes s.toUTF8.toList

def packedUserOperation (p : PackedUserOperation) : Bytes :=
  tuple [.static (address p.sender), .static (word p.nonce.toNat), .dynamic (bytes p.initCode),
    .dynamic (bytes p.callData), .static p.accountGasLimits.bytes, .static (word p.preVerificationGas.toNat),
    .static p.gasFees.bytes, .dynamic (bytes p.paymasterAndData), .dynamic (bytes p.signature)]

/-- The word at byte `off`. -/
def wordAt (data : Bytes) (off : Nat) : Option Nat :=
  if off + 32 ≤ data.length then some (ofBe ((data.drop off).take 32)) else none

/-- The byte string whose length word is at `off`. -/
def bytesAt (data : Bytes) (off : Nat) : Option Bytes := do
  let len ← wordAt data off
  if off + 32 + len ≤ data.length then some ((data.drop (off + 32)).take len) else none

/-- The byte string behind the offset word at `off`. -/
def bytesMember (data : Bytes) (off : Nat) : Option Bytes := do bytesAt data (← wordAt data off)

def ascii (l : Bytes) : String := String.ofList (l.map fun x => Char.ofNat x.toNat)

def validationResult (data : Bytes) : Option ValidationResult := do
  let result ← wordAt data 0
  let info := result + (← wordAt data result)
  return ⟨⟨BitVec.ofNat 256 (← wordAt data info), BitVec.ofNat 256 (← wordAt data (info + 32)),
    BitVec.ofNat 256 (← wordAt data (info + 64)), BitVec.ofNat 256 (← wordAt data (info + 96))⟩⟩

end Abi

/-! ## The type-2 envelope -/

namespace Rlp

/-- The big-endian bytes of `n` without leading zeros. -/
def minimalBytes (n : Nat) : Bytes := (beBytes 32 n).dropWhile (· == 0)

def header (short : Nat) (len : Nat) : Bytes :=
  if len ≤ 55 then [UInt8.ofNat (short + len)]
  else UInt8.ofNat (short + 55 + (minimalBytes len).length) :: minimalBytes len

def string : Bytes → Bytes
  | [x] => if x.toNat < 0x80 then [x] else [0x81, x]
  | l => header 0x80 l.length ++ l

def nat (n : Nat) : Bytes := string (minimalBytes n)

def list (items : List Bytes) : Bytes := header 0xc0 items.flatten.length ++ items.flatten

end Rlp

def encoded2718 (env : TxEnvelope) : Bytes :=
  let tx := env.tx
  let kind : Bytes := match tx.to with
    | .create => []
    | .call addr => addr.bytes
  let accessList := Rlp.list (tx.accessList.map fun (addr, keys) =>
    Rlp.list [Rlp.string addr.bytes, Rlp.list (keys.map (Rlp.string ·.bytes))])
  0x02 :: Rlp.list [Rlp.nat tx.chainId.toNat, Rlp.nat tx.nonce.toNat, Rlp.nat tx.maxPriorityFeePerGas.toNat,
    Rlp.nat tx.maxFeePerGas.toNat, Rlp.nat tx.gasLimit.toNat, Rlp.string kind, Rlp.nat tx.value.toNat,
    Rlp.string tx.input, accessList, Rlp.nat env.signature.yParity.toNat, Rlp.nat env.signature.r.toNat,
    Rlp.nat env.signature.s.toNat]

/-- `alloy`, as far as the bundler uses it. -/
def alloy : Alloy where
  handleOpsAbiEncode ops beneficiary :=
    [0x76, 0x5e, 0x82, 0x7f] ++
      Abi.tuple [.dynamic (Abi.array (ops.map Abi.packedUserOperation)), .static (Abi.address beneficiary)]
  simulateValidationAbiEncode op :=
    [0xc3, 0xbc, 0xe0, 0x09] ++ Abi.tuple [.dynamic (Abi.packedUserOperation op)]
  simulateValidationAbiDecodeReturns data :=
    match Abi.validationResult data with
    | some v => .ok v
    | none => .error "ABI decoding failed: buffer overrun while deserializing"
  encoded2718 := encoded2718
  txHash env := ⟨Keccak.keccak256 (encoded2718 env), Keccak.length_keccak256 _⟩
  failedOpEncode i r := Abi.tuple [.static (Abi.word i.toNat), .dynamic (Abi.string r)]
  failedOpDecode data := do
    let i ← Abi.wordAt data 0
    let r ← Abi.bytesMember data 32
    return (BitVec.ofNat 256 i, Abi.ascii r)
  failedOpWithRevertEncode i r inner :=
    Abi.tuple [.static (Abi.word i.toNat), .dynamic (Abi.string r), .dynamic (Abi.bytes inner)]
  failedOpWithRevertDecode data := do
    let i ← Abi.wordAt data 0
    let r ← Abi.bytesMember data 32
    let inner ← Abi.bytesMember data 64
    return (BitVec.ofNat 256 i, Abi.ascii r, inner)
  signatureValidationFailedDecode data :=
    if h : 32 ≤ data.length then
      some ⟨(data.drop 12).take 20, by rw [List.length_take, List.length_drop]; omega⟩
    else none
  postOpRevertedDecode data := Abi.bytesMember data 0
  stringDecode data := (Abi.bytesMember data 0).map Abi.ascii
  uint256Decode data := (Abi.wordAt data 0).map (BitVec.ofNat 256)

/-! ## The test-suite's data -/

/-- `ENTRYPOINT_V07` (`config.rs:12-15`). -/
def ENTRYPOINT_V07 : Address :=
  ⟨[0x00, 0x00, 0x00, 0x00, 0x71, 0x72, 0x7d, 0xe2, 0x2e, 0x5e, 0x9d, 0x8b, 0xaf, 0x0e, 0xda, 0xc6,
    0xf3, 0x7d, 0xa0, 0x32], rfl⟩

/-- The address of `TEST_KEY`. -/
def testSigner : Address :=
  ⟨[0xf3, 0x9f, 0xd6, 0xe5, 0x1a, 0xad, 0x88, 0xf6, 0xf4, 0xce, 0x6a, 0xb8, 0x82, 0x72, 0x79, 0xcf,
    0xff, 0xb9, 0x22, 0x66], rfl⟩

/-- An address of one byte, twenty times. -/
def repeatAddress (x : UInt8) : Address := ⟨List.replicate 20 x, by simp⟩

/-- `test_config` (`tests/bundler_pipeline.rs:173-184`). -/
def testConfig : BundlerConfig where
  chainId := 31337
  entrypointAddress := ENTRYPOINT_V07
  maxBatchSize := 10
  minPriorityFeeWei := 1000000000
  gasMarginPct := 10

/-- The bundler of the tests, with stand-in simulation bytecode, built for release. -/
def testBundler : Bundler where
  cfg := testConfig
  signerAddress := testSigner
  simulationsCode := [0x60, 0x80]
  build := .release

/-- `happy_op` (`tests/bundler_pipeline.rs:186-206`). -/
def happyOp : UserOpV07 where
  sender := repeatAddress 0x11
  nonce := 1
  initCode := []
  factory := none
  factoryData := []
  callData := [0xb6, 0x1d, 0x27, 0xf6]
  callGasLimit := 100000
  verificationGasLimit := 100000
  preVerificationGas := 50000
  maxFeePerGas := 5000000000
  maxPriorityFeePerGas := 2000000000
  paymaster := none
  paymasterVerificationGasLimit := 0
  paymasterPostOpGasLimit := 0
  paymasterData := []
  paymasterAndData := []
  signature := [0x00]

/-- An op of another sender: its fee cap is below `happyOp`'s and its tip above. -/
def otherOp : UserOpV07 :=
  { happyOp with
    sender := repeatAddress 0x22
    nonce := 5
    maxFeePerGas := 4000000000
    maxPriorityFeePerGas := 3000000000 }

/-- One op of each sender. -/
def twoOps : List UserOpV07 := [happyOp, otherOp]

/-- `(hi << 128) | lo`, as 32 bytes. -/
def packedPair (hi lo : Nat) : B256 := ⟨beBytes 32 (hi * 2 ^ 128 + lo), length_beBytes _ _⟩

/-- What `happyOp` packs to. -/
def happyPacked : PackedUserOperation where
  sender := repeatAddress 0x11
  nonce := 1
  initCode := []
  callData := [0xb6, 0x1d, 0x27, 0xf6]
  accountGasLimits := packedPair 100000 100000
  preVerificationGas := 50000
  gasFees := packedPair 2000000000 5000000000
  paymasterAndData := []
  signature := [0x00]

def submitOpts : BuildOpts := ⟨31337, true⟩

def testUserOpHash : B256 := ⟨List.replicate 32 0xaa, by simp⟩

/-- Whether a question goes to the signer. -/
def Op.isSign : Op → Bool
  | .signEip1559 _ => true
  | _ => false

/-- `MockProvider::default()`, a fixed clock and a fixed signature; the node echoes some hash. -/
def mockAnswer : (o : Op) → o.Ans
  | .rpc .baseFee => .ok 1000000000
  | .rpc .maxPriorityFee => .ok 1000000000
  | .rpc (.pendingNonce _) => .ok 7
  | .rpc (.balanceOf _ _) => .ok 1000000000000000000
  | .rpc (.userOpHash _ _) => .ok testUserOpHash
  | .rpc (.estimateHandleOpsGas _ _ _) => .ok 250000
  | .rpc (.sendRawTransaction _) => .ok testUserOpHash
  | .rpc (.waitForReceipt hash _) => .ok (some ⟨hash, 1, true⟩)
  | .rpc (.tryCallForRevert _ _ _) => .ok none
  | .rpc (.simulateValidation _ _ _) => .ok ⟨⟨100000, 50000, 0, 0⟩⟩
  | .lock => ()
  | .unlock => ()
  | .sinceEpoch => some 1700000000
  | .signEip1559 _ => .ok ⟨1, 1, false⟩

end EtheraBundler
