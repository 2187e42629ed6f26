import Bango.Lib.Runs
import Bango.Lib.Tally
import Bango.Lib.Framing
import Bango.Lib.Bytes
import Bango.Lib.Ids
import Bango.Lib.Keyed
import Bango.Lib.Cells
import Bango.Lib.Locks
import Bango.Lib.Brackets
import Bango.Space.Geometry
import Bango.Space.Container
import Bango.Space.Quadtree
import Bango.Space.Proofs.WellFormed
import Bango.Space.Proofs.Insert
import Bango.Space.Proofs.Remove
import Bango.Space.Proofs.MergeSafety
import Bango.Space.Proofs.Coverage
import Bango.Space.Proofs.Refinement
import Bango.Space.Proofs.Placed
import Bango.Space.Proofs.Visits
import Bango.Network.Packet
import Bango.Network.Proofs.Packet
import Bango.Network.Pops
import Bango.Network.Proofs.Fields
import Bango.Network.Pushes
import Bango.Network.Proofs.Made
import Bango.Network.Calls
import Bango.Network.Proofs.Atomic
import Bango.Network.Proofs.Types
import Bango.Network.Proofs.Values
import Bango.Network.Server
import Bango.Network.Proofs.Server
import Bango.Network.Sessions
import Bango.Network.Proofs.Sessions
import Bango.Monsters.Monster
import Bango.Monsters.System
import Bango.Monsters.Hostility
import Bango.Monsters.Proofs.Hostility
import Bango.Monsters.Proofs.Steps
import Bango.Monsters.Proofs.Listed
import Bango.Monsters.Proofs.Lives
import Bango.Monsters.Proofs.Cycle
import Bango.Monsters.Proofs.InPlace
import Bango.Monsters.Summons
import Bango.Monsters.Proofs.Population
import Bango.Monsters.Proofs.Respawns
import Bango.Network.Client
import Bango.Network.Proofs.Client
import Bango.Account.Requests
import Bango.Account.Proofs.Relay
import Bango.Account.Proofs.Credentials
import Bango.Account.Proofs.Alignment
import Bango.World.Map
import Bango.World.Proofs.Callbacks
import Bango.World.Proofs.Queries
import Bango.World.Proofs.Views
import Bango.World.Container
import Bango.World.Registry
import Bango.World.Proofs.Registry
import Bango.World.Around
import Bango.World.Proofs.Around
import Bango.World.Proofs.Loots
import Bango.World.Sight
import Bango.World.Proofs.Settled
import Bango.World.Proofs.Sight
import Bango.Session.System
import Bango.Session.Proofs.Steps
import Bango.Session.Proofs.Authorized
import Bango.Session.Proofs.InWorld
import Bango.Session.Accounts
import Bango.Session.Proofs.Accounts
import Bango.Session.Players
import Bango.Session.Proofs.Players
import Bango.Session.Handlers
import Bango.Session.Proofs.Handlers
import Bango.Session.Proofs.Presence
import Bango.Session.Passwords
import Bango.Session.Proofs.Passwords
import Bango.Session.Proofs.Clients
import Bango.Session.Proofs.Logins
import Bango.Items.Inventory
import Bango.Items.System
import Bango.Items.Proofs.Rows
import Bango.Items.Proofs.Settling
import Bango.Items.Proofs.Operations
import Bango.Items.Proofs.Linked
import Bango.Items.Proofs.Agreement
import Bango.Items.Proofs.Permitted
import Bango.Items.Equipment
import Bango.Items.Proofs.Dressed
import Bango.Items.Proofs.Dressing
import Bango.Items.Proofs.Moves
import Bango.Items.Proofs.Reloads
import Bango.Items.Proofs.Projection
import Bango.Lib.Packed
import Bango.Lib.Amounts
import Bango.Lib.Thresholds
import Bango.Network.Typed
import Bango.Network.Callbacks
import Bango.Characters.Records
import Bango.Characters.Proofs.Records
import Bango.Characters.Proofs.LoadItems
import Bango.Characters.Experience
import Bango.Characters.Proofs.Experience
import Bango.Characters.Stats
import Bango.Characters.Proofs.Stats
import Bango.Characters.Skills
import Bango.Characters.Proofs.Skills
import Bango.Characters.LoadSkills
import Bango.Characters.Proofs.LoadSkills
import Bango.Characters.Damage
import Bango.Characters.Proofs.Damage
import Bango.Characters.Direction
import Bango.Characters.Proofs.Direction
import Bango.Loots.System
import Bango.Loots.Proofs.Pickups
import Bango.Loots.Chances
import Bango.Loots.Proofs.Chances
import Bango.Parties.System
import Bango.Parties.Proofs.Membership
import Bango.Parties.Proofs.Registered
import Bango.Parties.Shares
import Bango.Parties.Proofs.Encoding
import Bango.Parties.Proofs.Shares
import Bango.Parties.Windows
import Bango.Parties.Proofs.Windows
import Bango.Parties.Proofs.Heads
import Bango.Locks.Handlers
import Bango.Locks.System
import Bango.Locks.Proofs.Proper
import Bango.Locks.Proofs.DeadlockFree
import Bango.Locks.Proofs.Steps
import Bango.Locks.Proofs.Deadlocks
import Bango.Processor.Lexer
import Bango.Processor.Parser
import Bango.Processor.Proofs.Parser
import Bango.Processor.Proofs.Quotes
import Bango.Processor.Proofs.Layout
import Bango.Chat.Commands
import Bango.Chat.Proofs.Commands
import Bango.Lib.Loops
import Bango.Processor.Cursor
import Bango.Processor.Proofs.Cursor
import Bango.Lib.Cons
import Bango.Lib.Storage
import Bango.Lib.Mirror
import Bango.Processor.ParseList
import Bango.Processor.Proofs.ParseList
import Bango.Processor.Objects
import Bango.Processor.Proofs.Objects
import Bango.Processor.Database
import Bango.Processor.Proofs.Database
import Bango.Loots.Database
import Bango.Loots.Proofs.Database
import Bango.Characters.Proofs.Restoring
import Bango.Characters.Windows
import Bango.Characters.Proofs.Shown
import Bango.Characters.Proofs.Windows
