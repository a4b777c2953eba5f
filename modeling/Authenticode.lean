import Authenticode.Action
import Authenticode.Armor
import Authenticode.Armor.Base64
import Authenticode.Armor.PemFile
import Authenticode.Bytes
import Authenticode.CertificateDatabase
import Authenticode.CertificateTable
import Authenticode.Cms.Attributes
import Authenticode.Cms.Identity
import Authenticode.Cms.IndirectData
import Authenticode.Cms.Signature
import Authenticode.Cms.SignedData
import Authenticode.Cms.Time
import Authenticode.CommandLine.Arguments
import Authenticode.CommandLine.Run
import Authenticode.Configuration
import Authenticode.Der
import Authenticode.Der.Value
import Authenticode.Digest
import Authenticode.Error
import Authenticode.FileSystem.Basic
import Authenticode.FileSystem.Failure
import Authenticode.FileSystem.Path
import Authenticode.Hash.Algorithm
import Authenticode.Hash.Sha2
import Authenticode.Key.Curve
import Authenticode.Key.Edwards
import Authenticode.Key.Private
import Authenticode.Key.Public
import Authenticode.Key.Signing
import Authenticode.Main
import Authenticode.Number.Modular
import Authenticode.Pe.Checksum
import Authenticode.Pe.Coverage
import Authenticode.Pe.Describe
import Authenticode.Pe.Header
import Authenticode.Pe.Image
import Authenticode.Pe.Layout
import Authenticode.Proofs.Action
import Authenticode.Proofs.Armor
import Authenticode.Proofs.Attributes
import Authenticode.Proofs.Attributes.Canonical
import Authenticode.Proofs.Attributes.MessageDigests
import Authenticode.Proofs.Bytes
import Authenticode.Proofs.CertificateLookup
import Authenticode.Proofs.CertificateTable
import Authenticode.Proofs.CommandLine.Effects
import Authenticode.Proofs.CommandLine.Requests
import Authenticode.Proofs.Der
import Authenticode.Proofs.Der.Canonical
import Authenticode.Proofs.Der.Elements
import Authenticode.Proofs.Der.Integer
import Authenticode.Proofs.Draft
import Authenticode.Proofs.FileSystem
import Authenticode.Proofs.FileSystem.Contents
import Authenticode.Proofs.FileSystem.Frame
import Authenticode.Proofs.Pe.Bounds
import Authenticode.Proofs.Pe.Calls
import Authenticode.Proofs.Pe.Checksum
import Authenticode.Proofs.Pe.Checksum.Carries
import Authenticode.Proofs.Pe.Coverage
import Authenticode.Proofs.Pe.Dependence
import Authenticode.Proofs.Pe.Editing
import Authenticode.Proofs.Pe.Exposure
import Authenticode.Proofs.Pe.Failures
import Authenticode.Proofs.Pe.Fields
import Authenticode.Proofs.Pe.Growth
import Authenticode.Proofs.Pe.Reading
import Authenticode.Proofs.Pe.Table
import Authenticode.Proofs.Pe.TableCoverage
import Authenticode.Proofs.Planning
import Authenticode.Proofs.RawSignature
import Authenticode.Proofs.Session.Chains
import Authenticode.Proofs.Session.Checksums
import Authenticode.Proofs.Session.Completion
import Authenticode.Proofs.Session.Digests
import Authenticode.Proofs.Session.Effects
import Authenticode.Proofs.Session.Embedding
import Authenticode.Proofs.Session.Files
import Authenticode.Proofs.Session.ListEdits
import Authenticode.Proofs.Session.Reopening
import Authenticode.Proofs.Session.Reuse
import Authenticode.Proofs.Session.Rewriting
import Authenticode.Proofs.Session.Routes
import Authenticode.Proofs.Session.Steps
import Authenticode.Proofs.Signature
import Authenticode.Proofs.SignatureFile
import Authenticode.Proofs.SignedImage
import Authenticode.Proofs.SignedImage.Atomicity
import Authenticode.Proofs.SignedImage.Calls
import Authenticode.Proofs.SignedImage.Space
import Authenticode.Proofs.SignerInfo
import Authenticode.Proofs.SignerInfo.SerialNumber
import Authenticode.Proofs.Steps
import Authenticode.Proofs.TwoRuns
import Authenticode.Proofs.Verification
import Authenticode.Session.Basic
import Authenticode.Session.Options
import Authenticode.Session.Workflows
import Authenticode.SignedImage
import Authenticode.Text
import Authenticode.Toml.Document
import Authenticode.Toml.Number
import Authenticode.Toml.Reader
import Authenticode.Toml.Text
import Authenticode.Toml.Value
import Authenticode.X509.Certificate
import Authenticode.X509.Name
