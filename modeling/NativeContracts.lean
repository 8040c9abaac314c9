import NativeContracts.Address
import NativeContracts.Address.Checksum
import NativeContracts.Address.Wellknown
import NativeContracts.BinaryPower
import NativeContracts.Bytes
import NativeContracts.Bytes.Hex
import NativeContracts.Contract
import NativeContracts.Curve.Bn254
import NativeContracts.Curve.Bn254.Pairing
import NativeContracts.Curve.Point
import NativeContracts.Curve.Residue
import NativeContracts.Curve.Secp256k1
import NativeContracts.Decimal
import NativeContracts.Decimal.Notation
import NativeContracts.Decimal.Shortest
import NativeContracts.Digest.Blake2
import NativeContracts.Digest.Blocks
import NativeContracts.Digest.Keccak
import NativeContracts.Digest.Ripemd160
import NativeContracts.Digest.Sha256
import NativeContracts.Dispatcher
import NativeContracts.Event
import NativeContracts.Fork
import NativeContracts.Json.DecodeFault
import NativeContracts.Json.Number
import NativeContracts.Json.Reader
import NativeContracts.Json.Skipping
import NativeContracts.Json.Text
import NativeContracts.Modexp
import NativeContracts.Modexp.Header
import NativeContracts.Operation
import NativeContracts.Price
import NativeContracts.Probe
import NativeContracts.Proofs.Agreement
import NativeContracts.Proofs.Bytes
import NativeContracts.Proofs.Chain
import NativeContracts.Proofs.Contract
import NativeContracts.Proofs.Contract.Output
import NativeContracts.Proofs.Dispatcher
import NativeContracts.Proofs.Except
import NativeContracts.Proofs.Limit
import NativeContracts.Proofs.Log
import NativeContracts.Proofs.Modexp.Charge
import NativeContracts.Proofs.Modexp.Execution
import NativeContracts.Proofs.Modexp.Formula
import NativeContracts.Proofs.Modexp.Header
import NativeContracts.Proofs.Modexp.Oversized
import NativeContracts.Proofs.Modexp.Prepaid
import NativeContracts.Proofs.Modexp.Price
import NativeContracts.Proofs.Operation
import NativeContracts.Proofs.Padding
import NativeContracts.Proofs.Registry
import NativeContracts.Proofs.Routine
import NativeContracts.Proofs.Session
import NativeContracts.Proofs.Upgrade
import NativeContracts.Registry
import NativeContracts.Revision
import NativeContracts.Revision.Decoding
import NativeContracts.Routine
import NativeContracts.Routine.Compression
import NativeContracts.Routine.Copying
import NativeContracts.Routine.CurveArithmetic
import NativeContracts.Routine.Deployment
import NativeContracts.Routine.Exponentiation
import NativeContracts.Routine.Recovery
import NativeContracts.Ruleset
import NativeContracts.Ruleset.Decoding
import NativeContracts.Ruleset.Encoding
import NativeContracts.Ruleset.Text
import NativeContracts.Saturating
import NativeContracts.Session
import NativeContracts.Shelf
import NativeContracts.Text.Escaped
import NativeContracts.Text.Quoted
import NativeContracts.Proofs.Modexp.Power
import NativeContracts.Proofs.Registry.Extension
import NativeContracts.Proofs.Registry.Listing
import NativeContracts.Proofs.Json.Grammar
import NativeContracts.Proofs.Json.Number
import NativeContracts.Proofs.Json.Skipping
import NativeContracts.Proofs.Json.Reader
import NativeContracts.Proofs.Ruleset.Field
import NativeContracts.Proofs.Ruleset.Object
import NativeContracts.Proofs.Ruleset.Array
import NativeContracts.Proofs.Ruleset.Decoding
import NativeContracts.Proofs.Ruleset.Encoding
import NativeContracts.Proofs.Ruleset.Validation
import NativeContracts.Proofs.Ruleset.Repetition
import NativeContracts.Proofs.Ruleset.Revision
import NativeContracts.Proofs.Contract.Price
import NativeContracts.Proofs.Modexp.Layout
import NativeContracts.Proofs.Checked
import NativeContracts.Proofs.Modexp.Checked
