import Redeemy.Lib.Fallible
import Redeemy.Lib.EnumerableSet
import Redeemy.Lib.CallStack
import Redeemy.Lib.Ledger
import Redeemy.Lib.Draw
import Redeemy.Lib.Reserve
import Redeemy.Lib.Strip
import Redeemy.Lib.BigEndian
import Redeemy.Lib.Sampling
import Redeemy.Model.Boxes
import Redeemy.Model.Tokens
import Redeemy.Model.AssetPool
import Redeemy.Model.StringUtils
import Redeemy.Model.Redeem
import Redeemy.Model.RewardPool
import Redeemy.Model.Registry
import Redeemy.Model.System
import Redeemy.Model.ChildERC1155
import Redeemy.Model.RebelRunVRFConsumer
import Redeemy.Proof.Boxes
import Redeemy.Proof.Pool
import Redeemy.Proof.Deposit
import Redeemy.Proof.Withdraw
import Redeemy.Proof.Redemption
import Redeemy.Proof.Tokens
import Redeemy.Proof.Wiring
import Redeemy.Proof.Quiet
import Redeemy.Proof.Deploy
import Redeemy.Proof.Frames
import Redeemy.Proof.Change
import Redeemy.Proof.Requests
import Redeemy.Proof.Reservation
import Redeemy.Proof.Selection
import Redeemy.Proof.Solvency
import Redeemy.Proof.Custody
import Redeemy.Proof.Supply
import Redeemy.Proof.Books
import Redeemy.Proof.Registration
import Redeemy.Proof.Limits
import Redeemy.Proof.Numbering
import Redeemy.Proof.Paymasters
import Redeemy.Proof.Fees
import Redeemy.Proof.Counting
import Redeemy.Proof.Minters
import Redeemy.Proof.Trim
import Redeemy.Proof.Names
import Redeemy.Proof.Payments
import Redeemy.Proof.Delivery
import Redeemy.Proof.Settlement
import Redeemy.Proof.Locked
import Redeemy.Proof.Entitled
import Redeemy.Proof.Validation
import Redeemy.Proof.Merging
import Redeemy.Proof.Taking
import Redeemy.Proof.Payout
import Redeemy.Proof.Quotes
import Redeemy.Proof.WriteOffs
import Redeemy.Proof.Winners
import Redeemy.Lib.Simulation
import Redeemy.Model.Forwarder
import Redeemy.Proof.Forwarding
import Redeemy.Proof.Digest
import Redeemy.Proof.Signed
import Redeemy.Proof.SignedCharges
import Redeemy.Lib.Handover
import Redeemy.Lib.Abi
import Redeemy.Lib.AbiTuple
import Redeemy.Lib.Memory
import Redeemy.Lib.Rlp
import Redeemy.Model.RLPReader
import Redeemy.Model.Penalizer
import Redeemy.Model.StakeManager
import Redeemy.Model.RelayHub
import Redeemy.Model.RelayRegistrar
import Redeemy.Proof.Staking
import Redeemy.Proof.Hub
import Redeemy.Proof.HubLedger
import Redeemy.Proof.Relays
import Redeemy.Proof.Workers
import Redeemy.Proof.Sponsors
import Redeemy.Proof.Stakes
import Redeemy.Proof.Penalties
import Redeemy.Proof.RLPReader
import Redeemy.Proof.Verdicts
import Redeemy.Proof.Honest
import Redeemy.Proof.Reports
import Redeemy.Proof.Registrar
import Redeemy.Proof.Packing
