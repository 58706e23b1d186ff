import Lcom.Device.I8254
import Lcom.Lab2.Proofs.TimerConf
import Lcom.Lab2.Proofs.TimerInt
import Lcom.Lab2.TimerConf
import Lcom.Lab2.TimerInt
import Lcom.Lab4.Async
import Lcom.Lab4.Gesture
import Lcom.Lab4.MouseAsync
import Lcom.Lab4.Proofs.Async
import Lcom.Lab4.Proofs.Gesture
import Lcom.Lab4.Proofs.PacketStream
import Lcom.Lab4.Proofs.PacketTest
import Lcom.Lab4.Proofs.Remote
import Lcom.Lab4.Proofs.Strokes
import Lcom.Lab4.Tests
import Lcom.Lab5.Keyboard
import Lcom.Lab5.Move
import Lcom.Lab5.Pattern
import Lcom.Lab5.Proofs.Discard
import Lcom.Lab5.Proofs.Move
import Lcom.Lab5.Proofs.Pattern
import Lcom.Lab5.Proofs.Rectangle
import Lcom.Lab5.Proofs.Scancodes
import Lcom.Lab5.Proofs.Shown
import Lcom.Lab5.Proofs.Timer
import Lcom.Lab5.Proofs.Trail
import Lcom.Lab5.Timer
import Lcom.Lab5.VideoGr
import Lcom.Lab5.VideoTests
import Lcom.Machine.Attempt
import Lcom.Machine.Cascade
import Lcom.Machine.Clock
import Lcom.Machine.Commute
import Lcom.Machine.Concentration
import Lcom.Machine.Force
import Lcom.Machine.Grid
import Lcom.Machine.Latch
import Lcom.Machine.Loop
import Lcom.Machine.Overlay
import Lcom.Machine.Overwrite
import Lcom.Machine.Pairing
import Lcom.Machine.Past
import Lcom.Machine.Poll
import Lcom.Machine.Reach
import Lcom.Machine.Shuffle
import Lcom.Machine.Transduce
import Lcom.Proj.CommandByte
import Lcom.Proj.Cursor
import Lcom.Proj.Decode
import Lcom.Proj.Discard
import Lcom.Proj.Game
import Lcom.Proj.History
import Lcom.Proj.Kbc
import Lcom.Proj.Keyboard
import Lcom.Proj.Latches
import Lcom.Proj.MainLoop
import Lcom.Proj.Mouse
import Lcom.Proj.MouseCommand
import Lcom.Proj.Proofs.ActOnce
import Lcom.Proj.Proofs.Animation
import Lcom.Proj.Proofs.Checked
import Lcom.Proj.Proofs.Click
import Lcom.Proj.Proofs.ClickAccess
import Lcom.Proj.Proofs.Coalesced
import Lcom.Proj.Proofs.CommandByte
import Lcom.Proj.Proofs.Complete
import Lcom.Proj.Proofs.Counter
import Lcom.Proj.Proofs.Cursor
import Lcom.Proj.Proofs.Deal
import Lcom.Proj.Proofs.Decode
import Lcom.Proj.Proofs.Dispatch
import Lcom.Proj.Proofs.Edges
import Lcom.Proj.Proofs.FairPlay
import Lcom.Proj.Proofs.Kbc
import Lcom.Proj.Proofs.Latches
import Lcom.Proj.Proofs.Lives
import Lcom.Proj.Proofs.Match
import Lcom.Proj.Proofs.Memory
import Lcom.Proj.Proofs.MouseCommand
import Lcom.Proj.Proofs.OnDeck
import Lcom.Proj.Proofs.Outcome
import Lcom.Proj.Proofs.Packets
import Lcom.Proj.Proofs.Phase
import Lcom.Proj.Proofs.Pixels
import Lcom.Proj.Proofs.Play
import Lcom.Proj.Proofs.Player
import Lcom.Proj.Proofs.Preview
import Lcom.Proj.Proofs.Progress
import Lcom.Proj.Proofs.Recovery
import Lcom.Proj.Proofs.Refine
import Lcom.Proj.Proofs.Replay
import Lcom.Proj.Proofs.Rtc
import Lcom.Proj.Proofs.Screen
import Lcom.Proj.Proofs.Screens
import Lcom.Proj.Proofs.Seen
import Lcom.Proj.Proofs.Selection
import Lcom.Proj.Proofs.Setup
import Lcom.Proj.Proofs.ShownBoard
import Lcom.Proj.Proofs.Shuffle
import Lcom.Proj.Proofs.Sprites
import Lcom.Proj.Proofs.Squeezed
import Lcom.Proj.Proofs.Steps
import Lcom.Proj.Proofs.Swift
import Lcom.Proj.Proofs.Ticks
import Lcom.Proj.Proofs.Timer
import Lcom.Proj.Proofs.Trap
import Lcom.Proj.Proofs.Turning
import Lcom.Proj.Proofs.Twins
import Lcom.Proj.Proofs.UniformFlip
import Lcom.Proj.Proofs.Winnable
import Lcom.Proj.Rtc
import Lcom.Proj.Scancodes
import Lcom.Proj.Screen
import Lcom.Proj.Setup
import Lcom.Proj.Slip
import Lcom.Proj.Sprites
import Lcom.Proj.Stream
import Lcom.Proj.Structs
import Lcom.Proj.Timer
import Lcom.Proj.Turns
import Lcom.Proj.Video
