import HighRollers.JavaRun
import HighRollers.Card
import HighRollers.ListPatterns
import HighRollers.HandPredicates
import HighRollers.HandRank
import HighRollers.EuchreTrick
import HighRollers.ArCore
import HighRollers.EuchreActivity
import HighRollers.EuchreListeners
import HighRollers.EuchreTable
import HighRollers.ImageNames
import HighRollers.ImageRenderer
import HighRollers.ImageFrames
import HighRollers.ImageHands
import HighRollers.HandAces
import HighRollers.EuchreWindow
import HighRollers.EuchreRuns
import HighRollers.EuchreDrawing
import HighRollers.ImageDrawings
import HighRollers.ArrayStores
import HighRollers.HandObject
import HighRollers.PixelConversion
import HighRollers.PictureStore
import HighRollers.RandomHands
import HighRollers.RandomHandKinds
import HighRollers.Selections
import HighRollers.ShuffleDraws
import HighRollers.TestDeck
import HighRollers.HandCensus
import HighRollers.Interleavings
import HighRollers.SessionLifecycle
import HighRollers.DisplayGeometry
import HighRollers.BoundedQueue
import HighRollers.EuchreFrames
import HighRollers.JavaBuffers
import HighRollers.PlaneDrawing
import HighRollers.PictureFrames
