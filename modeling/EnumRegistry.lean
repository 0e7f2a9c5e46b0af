import EnumRegistry.Files.Tree
import EnumRegistry.Main
import EnumRegistry.Proofs.Building.Accepted
import EnumRegistry.Proofs.Building.Drawn
import EnumRegistry.Proofs.Building.Findings
import EnumRegistry.Proofs.Building.Labels
import EnumRegistry.Proofs.Building.Outermost
import EnumRegistry.Proofs.Building.Overflow
import EnumRegistry.Proofs.Deprecation
import EnumRegistry.Proofs.Emission.FieldTypes
import EnumRegistry.Proofs.Emission.Members
import EnumRegistry.Proofs.Emission.Namespaces
import EnumRegistry.Proofs.Emission.Order
import EnumRegistry.Proofs.Registry.Delivery
import EnumRegistry.Proofs.Satellite.Renaming
import EnumRegistry.Proofs.Survey.FixedNames
import EnumRegistry.Proofs.Name.Ancestry
import EnumRegistry.Proofs.Name.FirstDigit
import EnumRegistry.Proofs.Name.Fragment
import EnumRegistry.Proofs.Name.Glyphs
import EnumRegistry.Proofs.Name.Content
import EnumRegistry.Proofs.Name.Replacement
import EnumRegistry.Proofs.Classification.Changes
import EnumRegistry.Proofs.Classification.PreOrder
import EnumRegistry.Proofs.Registry.Wrapping
import EnumRegistry.Proofs.Building.Outer
import EnumRegistry.Proofs.Transparency
import EnumRegistry.Proofs.Registry.Reordering
import EnumRegistry.Proofs.Survey.Reordering
import EnumRegistry.Proofs.Building.Reordering
import EnumRegistry.Proofs.Reordering
import EnumRegistry.Proofs.Emission.Remarks
import EnumRegistry.Proofs.Emission.Provenance
import EnumRegistry.Proofs.Emission.TypeName
import EnumRegistry.Proofs.Building.Resemblance
import EnumRegistry.Proofs.Registry.Skipping
import EnumRegistry.Proofs.Registry.Number
import EnumRegistry.Proofs.Target.Literal
import EnumRegistry.Proofs.Symbol
