import Paio.Addressing
import Paio.Aggregation
import Paio.BatchStatus
import Paio.ChannelCalls
import Paio.Classifiers
import Paio.CollectionClock
import Paio.CollectionPaths
import Paio.Connection
import Paio.ControlLoop
import Paio.DefaultChannels
import Paio.EnforcementRules
import Paio.FailedRules
import Paio.FastPath
import Paio.FastPathThreads
import Paio.Framing
import Paio.FrontEnds
import Paio.Isolation
import Paio.Keywords
import Paio.LimiterLife
import Paio.MessageSizes
import Paio.Monitoring
import Paio.Murmurhash
import Paio.ObjectIds
import Paio.PayloadCost
import Paio.PosixLayer
import Paio.Progress
import Paio.QueueHistory
import Paio.RateLimiter
import Paio.RefillSchedule
import Paio.RingWindow
import Paio.Routing
import Paio.RuleExecution
import Paio.RuleOrder
import Paio.RulePrinting
import Paio.RuleProperties
import Paio.RuleSet
import Paio.RuleThreads
import Paio.RulesFile
import Paio.StageInfo
import Paio.StatisticPositions
import Paio.TableCounters
import Paio.TableThreads
import Paio.Termination
import Paio.ThreadedBucket
import Paio.ThreadedLedger
import Paio.Tokens
import Paio.RatedFlow
import Paio.Chunks
