import Await.General.RingBuffer
import Await.General.LinkedList
import Await.General.Transition
import Await.General.TaskPool
import Await.General.Callback
import Await.General.Progress
import Await.General.RoundRobin
import Await.General.Bisection
import Await.General.MoveOnly
import Await.General.Process
import Await.General.Coroutine
import Await.General.Future
import Await.General.Population
import Await.General.Resources
import Await.General.Tasks
import Await.General.TaskProgress
import Await.NanoCoro.Naive
import Await.NanoCoro.Lookup
import Await.NanoCoro.SmFrame
import Await.NanoCoro.SmMultiLookup
import Await.NanoCoro.SmSafety
import Await.NanoCoro.Allocator
import Await.NanoCoro.Scheduler
import Await.NanoCoro.CoroSearch
import Await.NanoCoro.BinarySearch
import Await.NanoCoro.CoroMultiLookup
import Await.NanoCoro.CoroInvariant
import Await.NanoCoro.CoroResults
import Await.NanoCoro.CoroOrder
import Await.NanoCoro.FreeList
import Await.NanoCoro.FreeListHistory
import Await.NanoCoro.Recycling
import Await.NanoCoro.QueueRefinement
import Await.NanoCoro.Nanotest
import Await.Live.Client
import Await.Live.MyServer
import Await.Live.CoroServer
import Await.Live.Echo
import Await.Live.Easy
import Await.Live.Repost
import Await.Live.ServerProgram
import Await.Live.Timer
import Await.Live.NoisyClock
import Await.Live.HandlerMemory
import Await.Live.SessionSteps
import Await.Live.ClientStats
import Await.Live.ClientMemory
import Await.Live.AwaiterMemory
import Await.Live.Serving
import Await.Live.EndToEnd
import Await.Live.EndToEndProgress
import Await.Jax.Awaithe
import Await.Jax.Gen
import Await.SuperLean.Writer
import Await.SuperLean.Writing
import Await.SuperLean.Accounting
import Await.SuperLean.Shutdown
import Await.SuperLean.Agreement
import Await.SuperLean.AcceptLoop
import Await.SuperLean.Ownership
import Await.SuperLean.Program
import Await.SuperLean.Sockets
import Await.SuperLean.AwaitableSafety
import Await.SuperLean.CallbackProgram
import Await.SuperLean.CallbackSockets
import Await.SuperLean.CallbackSafety
