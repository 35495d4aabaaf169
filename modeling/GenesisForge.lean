import GenesisForge.Bls.Curve
import GenesisForge.Bls.Field
import GenesisForge.Bls.KeyFault
import GenesisForge.Bls.PublicKey
import GenesisForge.Bytes
import GenesisForge.Chain.Header
import GenesisForge.Chain.Reading
import GenesisForge.Chain.Records
import GenesisForge.Chain.Schemas
import GenesisForge.Chain.State
import GenesisForge.Chain.Version
import GenesisForge.ChainSpec
import GenesisForge.CommandLine.Options
import GenesisForge.CommandLine.Run
import GenesisForge.CommandLine.ValidatorsFile
import GenesisForge.Config
import GenesisForge.Decimal.Double
import GenesisForge.Decimal.Shortest
import GenesisForge.Digest.Keccak256
import GenesisForge.Digest.Sha256
import GenesisForge.Execution.Block
import GenesisForge.Execution.BlockText
import GenesisForge.Execution.Rlp
import GenesisForge.Genesis.Artifact
import GenesisForge.Genesis.Attestation
import GenesisForge.Genesis.Body
import GenesisForge.Genesis.Build
import GenesisForge.Genesis.Error
import GenesisForge.Genesis.Notice
import GenesisForge.Genesis.Roots
import GenesisForge.Genesis.SyncCommittee
import GenesisForge.Genesis.Validators
import GenesisForge.Json.Document
import GenesisForge.Json.Parse
import GenesisForge.Json.Structured
import GenesisForge.Json.Text
import GenesisForge.Main
import GenesisForge.Merkle
import GenesisForge.Merkle.Hasher
import GenesisForge.Shuffle
import GenesisForge.Ssz.Append
import GenesisForge.Ssz.Bits
import GenesisForge.Ssz.Encode
import GenesisForge.Ssz.Inspect
import GenesisForge.Ssz.Serializable
import GenesisForge.Ssz.Shape
import GenesisForge.Ssz.SizeError
import GenesisForge.Ssz.StreamedRoot
import GenesisForge.Ssz.ToJson
import GenesisForge.Ssz.TreeRoot
import GenesisForge.Ssz.Value
import GenesisForge.Structured
import GenesisForge.Text.Blank
import GenesisForge.Text.Hex
import GenesisForge.Text.Numeral
import GenesisForge.Text.Quoted
import GenesisForge.Text.Visible
import GenesisForge.Yaml.Cursor
import GenesisForge.Yaml.Node
import GenesisForge.Yaml.Node.Parse
import GenesisForge.Yaml.Resolve
import GenesisForge.Yaml.Structured
import GenesisForge.Yaml.Token
import GenesisForge.Yaml.Token.Properties
import GenesisForge.Yaml.Token.Scalars
import GenesisForge.Yaml.Token.Stream
import GenesisForge.Yaml.Value
import GenesisForge.Proofs.ByteStrings
import GenesisForge.Proofs.EncodingLayout
import GenesisForge.Proofs.BitPacking
import GenesisForge.Proofs.EncodedSizes
import GenesisForge.Proofs.EncodingInjective
import GenesisForge.Proofs.OffsetWords
import GenesisForge.Proofs.GenesisBuild
import GenesisForge.Proofs.HeaderBuilds
import GenesisForge.Proofs.TreeBinding
import GenesisForge.Proofs.RootBinding
import GenesisForge.Proofs.StateRoots
import GenesisForge.Proofs.RootsDefined
import GenesisForge.Proofs.ShufflePermutation
import GenesisForge.Proofs.CommitteeMembers
import GenesisForge.Proofs.CommitteeKeys
import GenesisForge.Proofs.EffectiveBalances
import GenesisForge.Proofs.BuildObstacles
import GenesisForge.Proofs.BuildFailures
import GenesisForge.Proofs.ConsistentGenesis
import GenesisForge.Proofs.HashStream
import GenesisForge.Proofs.StreamedRoots
import GenesisForge.Proofs.AppendedBytes
import GenesisForge.Proofs.AttestationIsolation
import GenesisForge.Proofs.ListRoots
import GenesisForge.Proofs.AttestationRuns
import GenesisForge.Proofs.FirstOffset
import GenesisForge.Proofs.DeepTrees
import GenesisForge.Proofs.ForkAgreement
import GenesisForge.Proofs.Numerals
import GenesisForge.Proofs.HexText
import GenesisForge.Proofs.ConfigValues
import GenesisForge.Proofs.ConfiguredSpec
import GenesisForge.Proofs.ValueSpelling
import GenesisForge.Proofs.JsonText
import GenesisForge.Proofs.JsonRecords
import GenesisForge.Proofs.StateTexts
import GenesisForge.Proofs.BalancedCommittee
import GenesisForge.Proofs.OffsetTable
import GenesisForge.Proofs.FairSelection
import GenesisForge.Proofs.ActiveCommittee
import GenesisForge.Proofs.QuotedIntegers
import GenesisForge.Proofs.ContainerSizing
import GenesisForge.Proofs.EditedBits
import GenesisForge.Proofs.VendorSources
import GenesisForge.Proofs.CommitteeArithmetic
import GenesisForge.Proofs.HexReaders
import GenesisForge.Proofs.BlockTexts
import GenesisForge.Proofs.CommandLines
import GenesisForge.Proofs.WrittenArtifacts
