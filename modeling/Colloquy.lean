import Colloquy.Json.Values
import Colloquy.Main
import Colloquy.Proofs.Calc.Checking
import Colloquy.Proofs.Calc.Complaints
import Colloquy.Proofs.Calc.Exactness
import Colloquy.Proofs.Calc.Image
import Colloquy.Proofs.Calc.Incremental
import Colloquy.Proofs.Calc.Nesting
import Colloquy.Proofs.Calc.Positions
import Colloquy.Proofs.Calc.RoundTrip
import Colloquy.Proofs.Calc.Symbols
import Colloquy.Proofs.CommandLine.Scripts
import Colloquy.Proofs.Engine.Debugging
import Colloquy.Proofs.Engine.Poisoning
import Colloquy.Proofs.Engine.Variables
import Colloquy.Proofs.Files.DepthFirst
import Colloquy.Proofs.Path.Components
import Colloquy.Proofs.Engine.Layout
import Colloquy.Proofs.Engine.Sources
import Colloquy.Proofs.Calc.Extension
import Colloquy.Proofs.CommandLine.Items
import Colloquy.Proofs.Calc.Resolution
import Colloquy.Proofs.Session.Key
import Colloquy.Proofs.Path.NormalForm
import Colloquy.Proofs.Json.RoundTrip
import Colloquy.Proofs.Calc.Progress
