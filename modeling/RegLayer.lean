import RegLayer.Text.Blank
import RegLayer.Text.WordChar
import RegLayer.Text.Upper
import RegLayer.Text.Pieces
import RegLayer.Checked
import RegLayer.Text.Number
import RegLayer.Report
import RegLayer.Access
import RegLayer.Tree
import RegLayer.Node
import RegLayer.Model.Path
import RegLayer.Model.Forest
import RegLayer.Text.Reader
import RegLayer.ClassRegister
import RegLayer.BusWidth
import RegLayer.Banner
import RegLayer.Options.Settings
import RegLayer.Naming
import RegLayer.Files.Disk
import RegLayer.Layer
import RegLayer.Description
import RegLayer.Svd.Import
import RegLayer.CommandLine.Run
import RegLayer.Main
import RegLayer.Proofs.Model.Region
import RegLayer.Proofs.Classes.Run
import RegLayer.Proofs.Layer
import RegLayer.Proofs.Classes.Once
import RegLayer.Proofs.BusWidth
import RegLayer.Proofs.Classes.Fits
import RegLayer.Proofs.Model.Rearranged
import RegLayer.Proofs.Classes.Collision
import RegLayer.Proofs.Classes.Sharing
import RegLayer.Proofs.Classes.Endianness
import RegLayer.Proofs.Text.Join
import RegLayer.Proofs.Naming.Lexical
import RegLayer.Proofs.Naming.Hierarchical
import RegLayer.Proofs.Model.Planted
import RegLayer.Proofs.Svd.Importing
import RegLayer.Proofs.Svd.Parts
import RegLayer.Proofs.Model.Agree
import RegLayer.Proofs.Model.Numbered
import RegLayer.Proofs.Description.Mirror
import RegLayer.Proofs.Classes.Members
import RegLayer.Proofs.Svd.Types
import RegLayer.Proofs.Svd.Design
import RegLayer.Proofs.Files.Disk
import RegLayer.Proofs.Files.Session
import RegLayer.Proofs.CommandLine.Run
import RegLayer.Proofs.Classes.Overflow
import RegLayer.Proofs.Description.Paths
import RegLayer.Proofs.Model.Ways
import RegLayer.Proofs.Svd.ClassNames
import RegLayer.Proofs.WidthTable
import RegLayer.Proofs.Elsewhere
import RegLayer.Proofs.Classes.Descriptions
import RegLayer.Proofs.Svd.Derived
import RegLayer.Proofs.Description.Totality
import RegLayer.Proofs.Svd.Resets
import RegLayer.Proofs.Classes.Offsets
import RegLayer.Proofs.Description.Declared
import RegLayer.Proofs.Banner
import RegLayer.Proofs.Classes.MemberNames
import RegLayer.Proofs.Text.Numerals
import RegLayer.Proofs.ClassRegister
import RegLayer.Proofs.Options
import RegLayer.Proofs.Model.Steps
import RegLayer.Proofs.Model.Traversal
import RegLayer.Proofs.Model.Position
