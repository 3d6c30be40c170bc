import TaggedUnion.Main
import TaggedUnion.Script.Session
import TaggedUnion.Proofs.NamedUnion.Clauses
import TaggedUnion.Proofs.World.Objects
import TaggedUnion.Proofs.World.Operations
import TaggedUnion.Proofs.World.Effects
import TaggedUnion.Proofs.World.Courses
import TaggedUnion.Proofs.World.Tags
import TaggedUnion.Proofs.NamedUnion.Creation
import TaggedUnion.Proofs.Text.Words
import TaggedUnion.Proofs.Repl.Reply
import TaggedUnion.Proofs.Repl.Session
import TaggedUnion.Proofs.Union.Relabel
import TaggedUnion.Proofs.World.Calls
import TaggedUnion.Proofs.World.Failures
import TaggedUnion.Proofs.World.Chronicle
import TaggedUnion.Proofs.World.Identity
import TaggedUnion.Proofs.Switch.Grammar
import TaggedUnion.Proofs.Union.Creation
import TaggedUnion.Proofs.Tag.Layers
import TaggedUnion.Proofs.Value.Contents
import TaggedUnion.Proofs.Value.Equality
import TaggedUnion.Proofs.Value.Display
import TaggedUnion.Proofs.Text.Quoted
import TaggedUnion.Proofs.Value.Plain
import TaggedUnion.Proofs.Binary64.Magnitude
import TaggedUnion.Proofs.Binary64.Rounding
import TaggedUnion.Proofs.Binary64.Numeral
import TaggedUnion.Proofs.Repl.Word
import TaggedUnion.Proofs.World.Deeds
import TaggedUnion.Proofs.World.CallTrees
import TaggedUnion.Proofs.Unseen
import TaggedUnion.Proofs.Union.CatchAll
import TaggedUnion.Proofs.Repl.Program
