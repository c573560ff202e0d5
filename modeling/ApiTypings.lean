import ApiTypings.CommandLine.Run
import ApiTypings.Generation
import ApiTypings.Main
import ApiTypings.Proofs.ComponentReferences
import ApiTypings.Proofs.Confinement
import ApiTypings.Proofs.NormalForm
import ApiTypings.Proofs.ReferenceChains
import ApiTypings.Proofs.Soundness
import ApiTypings.Proofs.SourceTrees
import ApiTypings.Proofs.StatusCodes
import ApiTypings.Query.Basic
import ApiTypings.SourceText
import ApiTypings.Proofs.Inlining
import ApiTypings.Proofs.FailureCauses
import ApiTypings.Proofs.NamedTypes
import ApiTypings.Proofs.PathItemChains
import ApiTypings.Proofs.ExportedNames
import ApiTypings.Proofs.Choices
import ApiTypings.Proofs.Restrictions
import ApiTypings.Proofs.CoercedLeaves
import ApiTypings.Proofs.InitArguments
import ApiTypings.Proofs.ResponseBranches
import ApiTypings.Proofs.DeclaredParameters
import ApiTypings.Proofs.EmptyBodies
import ApiTypings.Proofs.PathTemplates
import ApiTypings.Proofs.PointerPaths
import ApiTypings.Proofs.ParameterOverlay
import ApiTypings.Proofs.ResponseVariants
import ApiTypings.Proofs.UrlForms
import ApiTypings.Proofs.LoweringWarnings
import ApiTypings.Proofs.WrittenDefaults
import ApiTypings.Proofs.YamlTrees
import ApiTypings.Proofs.FaultPaths
import ApiTypings.Proofs.FieldOrder
import ApiTypings.Proofs.NameContent
import ApiTypings.Proofs.Regrouping
import ApiTypings.Proofs.TemplateEscapes
