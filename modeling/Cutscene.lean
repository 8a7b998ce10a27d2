import Cutscene.Movie.Memory
import Cutscene.Movie.Render
import Cutscene.Stage.ConfigText
import Cutscene.Stage.Describe
import Cutscene.Stage.Scripting
import Cutscene.Proofs.Dialogue.Dispatch
import Cutscene.Proofs.Script.Finisher
import Cutscene.Proofs.Script.Order
import Cutscene.Proofs.Script.Serial
import Cutscene.Proofs.Script.Aloof
import Cutscene.Proofs.Dialogue.Bare
import Cutscene.Proofs.Stage.Run
import Cutscene.Proofs.Stage.Effects
import Cutscene.Proofs.Stage.InStep
import Cutscene.Proofs.Stage.Pages
import Cutscene.Proofs.Stage.Outlook
import Cutscene.Proofs.Stage.Agenda
import Cutscene.Proofs.Movie.FrameCount
import Cutscene.Proofs.Movie.Painting
import Cutscene.Proofs.Scene.Tick
import Cutscene.Proofs.Scene.Tree
import Cutscene.Proofs.Scene.Change
import Cutscene.Proofs.Scene.Preorder
import Cutscene.Proofs.Movie.Calls
import Cutscene.Proofs.Movie.Runs
import Cutscene.Proofs.Stage.Nodes
import Cutscene.Proofs.Stage.Staged
import Cutscene.Proofs.Stage.Opening
import Cutscene.Proofs.Scene.Tended
import Cutscene.Proofs.Script.House
import Cutscene.Proofs.Scene.Showings
import Cutscene.Proofs.Stage.Fleeting
import Cutscene.Proofs.Stage.Camera
import Cutscene.Proofs.Motion.Landing
import Cutscene.Proofs.Scene.PaintOrder
import Cutscene.Proofs.Stage.Lines
import Cutscene.Proofs.Dialogue.Due
import Cutscene.Proofs.Script.Turn
import Cutscene.Proofs.Stage.Provided
import Cutscene.Proofs.Stage.Supplied
import Cutscene.Proofs.Sound.Channels
import Cutscene.Proofs.Stage.Sounds
import Cutscene.Proofs.Dialogue.Legible
import Cutscene.Proofs.Stage.Layers
import Cutscene.Proofs.Dialogue.Written
import Cutscene.Proofs.Stage.Written
import Cutscene.Proofs.Dialogue.Shown
import Cutscene.Proofs.Script.Glide
import Cutscene.Proofs.Dialogue.Course
import Cutscene.Proofs.Dialogue.Clock
import Cutscene.Proofs.Dialogue.Duration
import Cutscene.Proofs.Script.Lasting
import Cutscene.Proofs.Dialogue.Breaks
import Cutscene.Proofs.Scene.Reparent
import Cutscene.Proofs.Scene.Reverts
import Cutscene.Proofs.Stage.Payloads
import Cutscene.Proofs.Stage.Slams
import Cutscene.Proofs.Dialogue.Closing
import Cutscene.Proofs.Stage.Nametags
import Cutscene.Proofs.Asset.NormalForm
import Cutscene.Proofs.Asset.Coherence
import Cutscene.Proofs.Motion.Rising
import Cutscene.Proofs.Script.Onward
import Cutscene.Proofs.Scene.Timers
import Cutscene.Proofs.Movie.FileNames
import Cutscene.Proofs.Sound.Written
import Cutscene.Proofs.Scene.AnyOrder
import Cutscene.Proofs.Scene.Unseen
import Cutscene.Proofs.Movie.Sessions
import Cutscene.Proofs.Movie.RawVideo
import Cutscene.Proofs.Movie.StandIn
import Cutscene.Proofs.Asset.Looping
import Cutscene.Proofs.Scene.Outline
import Cutscene.Proofs.Movie.Readable
import Cutscene.Proofs.Movie.ReadBack
