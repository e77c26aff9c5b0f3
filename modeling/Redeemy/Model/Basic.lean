import Redeemy.Lib.Fallible
import Mathlib.Algebra.GroupWithZero.Nat
import Mathlib.Data.Fintype.Basic

/-!
# Values, errors and checked arithmetic

Addresses are 160-bit numbers. A `uint256` is a natural number, and every arithmetic operation of
the source is one of the checked operations below, which revert as the compiler's checks do when
the result does not fit.
-/

namespace Redeemy

open Fallible

abbrev Address := Fin (2 ^ 160)

instance instNeZeroAddress : NeZero (2 ^ 160) := ⟨by decide⟩

instance instLawfulBEqAddress : LawfulBEq Address := inferInstance

/-- The number of values of a `uint256`. -/
def UINT256_SIZE : Nat := 2 ^ 256

/-- Why a call reverts. -/
inductive Revert where
  /-- `require(condition, text)` -/
  | message (text : String)
  | DepositAtLeastOneAsset
  | RedeemAtLeastOneAsset
  | InvalidRedeemMethod
  | RedeemMoreThanMaxAmount
  | NotEnoughAssetsInThePool
  | InsufficientBalance
  | InsufficientApproval
  | TransferFailed
  | InvalidName
  | NameAlreadyExists
  | InvalidFeeAmountSent
  | InitializeCallFailed
  /-- a check of the compiler: `0x11` arithmetic, `0x12` division by zero, `0x32` array index -/
  | panic (code : Nat)
  /-- `revert()`, `require(condition)`, or a call to an address without the called function -/
  | empty
  deriving DecidableEq, Repr

abbrev Result (α : Type) := Except Revert α

def checkedAdd (a b : Nat) : Result Nat :=
  if a + b < UINT256_SIZE then .ok (a + b) else .error (.panic 0x11)

def checkedSub (a b : Nat) : Result Nat :=
  if b ≤ a then .ok (a - b) else .error (.panic 0x11)

def checkedMul (a b : Nat) : Result Nat :=
  if a * b < UINT256_SIZE then .ok (a * b) else .error (.panic 0x11)

def checkedMod (a b : Nat) : Result Nat :=
  if b = 0 then .error (.panic 0x12) else .ok (a % b)

def checkedDiv (a b : Nat) : Result Nat :=
  if b = 0 then .error (.panic 0x12) else .ok (a / b)

/-- `xs[i]` -/
def index {α : Type} (xs : List α) (i : Nat) : Result α :=
  orThrow xs[i]? (.panic 0x32)

/-- The element of a second array at the index of a loop over a first one. -/
def element {α : Type} (x : Option α) : Result α :=
  orThrow x (.panic 0x32)

theorem checkedAdd_eq_ok {a b c : Nat} : checkedAdd a b = .ok c ↔ a + b < UINT256_SIZE ∧ c = a + b := by
  unfold checkedAdd
  split_ifs with h <;> simp [h, eq_comm]

theorem checkedSub_eq_ok {a b c : Nat} : checkedSub a b = .ok c ↔ b ≤ a ∧ c = a - b := by
  unfold checkedSub
  split_ifs with h <;> simp [h, eq_comm]

theorem checkedMul_eq_ok {a b c : Nat} : checkedMul a b = .ok c ↔ a * b < UINT256_SIZE ∧ c = a * b := by
  unfold checkedMul
  split_ifs with h <;> simp [h, eq_comm]

theorem checkedMod_eq_ok {a b c : Nat} : checkedMod a b = .ok c ↔ b ≠ 0 ∧ c = a % b := by
  unfold checkedMod
  split_ifs with h <;> simp [h, eq_comm]

theorem index_eq_ok {α : Type} {xs : List α} {i : Nat} {a : α} :
    index xs i = .ok a ↔ ∃ h : i < xs.length, xs[i] = a := by
  rw [index, orThrow_eq_ok, List.getElem?_eq_some_iff]

theorem element_eq_ok {α : Type} {x : Option α} {a : α} : element x = .ok a ↔ x = some a :=
  orThrow_eq_ok

/-! ### Enumerations and records of the interfaces -/

inductive AssetType where
  | ERC721
  | ERC20
  | NativeToken
  deriving DecidableEq, Repr

instance : Fintype AssetType where
  elems := {.ERC721, .ERC20, .NativeToken}
  complete := fun t => by cases t <;> decide

inductive RedeemMethod where
  | ExistingERC20
  | CustomERC20
  | CustomERC1155
  deriving DecidableEq, Repr

/-- `numberOfCards` cards that win `amountOrTokenId` each (for an ERC721 the one token with that id). -/
structure AssetBox where
  depositer : Address
  assetType : AssetType
  numberOfCards : Nat
  amountOrTokenId : Nat
  deriving DecidableEq, Repr

/-- The array arguments that `depositAssets` and `withdrawAssets` share. -/
structure Assets where
  erc20ContractAddresses : List Address
  erc20Boxes : List (List AssetBox)
  erc721ContractAddresses : List Address
  erc721TokenIds : List (List Nat)
  nativeTokenBoxes : List AssetBox

end Redeemy
