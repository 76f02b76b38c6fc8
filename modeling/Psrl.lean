import Psrl.Staleness.Admission
import Psrl.Manager.TrackerRuns
import Psrl.Manager.VersionRuns
import Psrl.Dispatch.Chunks
import Psrl.Dispatch.Groups
import Psrl.Weights.PushPull
import Psrl.Weights.PushThread
import Psrl.Coordinator.Sync
import Psrl.Coordinator.Routing
import Psrl.Gen.SessionVersions
import Psrl.Gen.Readmission
import Psrl.Reward.RewardRuns
import Psrl.Env.Sandbox
import Psrl.Env.Coordinator
import Psrl.Elastic.ScaleUp
import Psrl.Elastic.MinAwake
import Psrl.Elastic.DecisionRuns
import Psrl.Nixl.PinnedSlots
import Psrl.Nixl.Assignment
import Psrl.Nixl.Refining
import Psrl.Converter.Mount
import Psrl.Dataset.SampleIds
