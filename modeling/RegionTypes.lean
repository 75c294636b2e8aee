import RegionTypes.Serial.Options
import RegionTypes.Settings.Recording
import RegionTypes.Proofs.Effect.Preorder
import RegionTypes.Proofs.Store.SharedBounds
import RegionTypes.Proofs.Loading.Unobservable
import RegionTypes.Proofs.View.Interleaving
import RegionTypes.Proofs.View.Composition
import RegionTypes.Proofs.Store.Solutions
import RegionTypes.Proofs.Completion.ExtraReads
import RegionTypes.Proofs.Completion.Defining
import RegionTypes.Proofs.Completion.Bookkeeping
import RegionTypes.Proofs.Region.Decision
import RegionTypes.Proofs.Effect.Composition
import RegionTypes.Proofs.Effect.Canonical
import RegionTypes.Proofs.Store.Supertypes
import RegionTypes.Proofs.Completion.Constants
import RegionTypes.Proofs.Completion.Enclosing
import RegionTypes.Proofs.Store.Permanence
import RegionTypes.Proofs.Store.StructuralEnds
import RegionTypes.Proofs.Store.Delegation
import RegionTypes.Proofs.Store.ArrayTexts
import RegionTypes.Proofs.Store.Repeated
import RegionTypes.Proofs.Settings.Merging
import RegionTypes.Proofs.Store.OwnerNames
import RegionTypes.Proofs.Store.Completing
import RegionTypes.Proofs.Store.Keys
import RegionTypes.Proofs.Store.BaseTypes
import RegionTypes.Proofs.Settings.Fields
