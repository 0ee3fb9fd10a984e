import SdlTypes.Main
import SdlTypes.Naming.Definition
import SdlTypes.Proofs.AncestorPath
import SdlTypes.Proofs.Arrangement
import SdlTypes.Proofs.BoundImports
import SdlTypes.Proofs.Closure
import SdlTypes.Proofs.CommentLines
import SdlTypes.Proofs.CompleteDeclarations
import SdlTypes.Proofs.ConvertedNames
import SdlTypes.Proofs.DeclaredNames
import SdlTypes.Proofs.Descriptions
import SdlTypes.Proofs.EnumBindings
import SdlTypes.Proofs.EnumConstants
import SdlTypes.Proofs.Exports
import SdlTypes.Proofs.Extensions
import SdlTypes.Proofs.Filtering
import SdlTypes.Proofs.KeyOrder
import SdlTypes.Proofs.MappedImports
import SdlTypes.Proofs.ObjectShape
import SdlTypes.Proofs.OneOfArms
import SdlTypes.Proofs.OneOfRule
import SdlTypes.Proofs.QuotedConstants
import SdlTypes.Proofs.ReadonlyProperties
import SdlTypes.Proofs.Rejection
import SdlTypes.Proofs.RunChanges
import SdlTypes.Proofs.Suppression
import SdlTypes.Proofs.TypeLevels
import SdlTypes.Proofs.WithoutDocument
import SdlTypes.Schema.Introspection
